import Mathlib.Data.List.Forall2
import SymbolAtlas.Proofs.Symbols.Populating
import SymbolAtlas.Proofs.Symbols.Provenance
import SymbolAtlas.Proofs.Symbols.Unpacking

/-!
# Classes as they are declared

A module whose parts can all be read has a class exactly when a part of its package declares it. The
class is as its first declaration says, in the order of the parts and in each part in its own order.
In a reserved namespace this goes before anything that an alias shows there.

* `ClassRecord.ReadAs`: the class descriptor that says what a record says;
* `Services.Assembled.inParts_eq_classOf`: the parts of a package have what the first declaration gives;
* `Library.Decodes`: all parts of a library can be read;
* `Module.findClass_faithful`: what look-ups find in such a module.
-/

namespace SymbolAtlas

open Query

/-! ## Declarations -/

/-- A constant of a payload, and the same constant with enumeration classes read as class ids, inside
of arrays as well. -/
inductive Constant.ReadAs : Constant String → Constant ClassId → Prop
  | bool (value : Bool) : ReadAs (.bool value) (.bool value)
  | int (value : Int64) : ReadAs (.int value) (.int value)
  | double (bits : UInt64) : ReadAs (.double bits) (.double bits)
  | text (value : String) : ReadAs (.text value) (.text value)
  | entry (owner name : String) : ReadAs (.entry owner name) (.entry (.parse owner) name)
  | array {items : List (Constant String)} {read : List (Constant ClassId)}
      (h : List.Forall₂ ReadAs items read) : ReadAs (.array items) (.array read)

/-- The annotation has the class and the arguments of the record, under the same names and in the same
order. -/
structure AnnotationRecord.ReadAs (record : AnnotationRecord) (a : Annotation) : Prop where
  classId : a.annotationClass.classId = .parse record.className
  arguments : List.Forall₂ (fun given read => read.1.text = given.1 ∧ given.2.ReadAs read.2)
    record.arguments a.arguments

/-- The descriptor is that of a class of a payload, with that id and all that the record says. -/
structure ClassRecord.ReadAs (record : ClassRecord) (id : ClassId) (d : ClassDescriptor) : Prop where
  origin : d.origin = .deserialized
  classId : d.classId = id
  kind : d.kind = record.kind
  typeParameters : d.typeParameters = record.typeParameters
  supertypes : d.supertypes = record.supertypes.map .parse
  annotations : List.Forall₂ AnnotationRecord.ReadAs record.annotations d.annotations

/-- The classes that parts of the package declare, in the order of the parts and in each part in its
order. -/
def declaredIn (package : QualName) (parts : List (QualName × Nat)) (payloads : List Payload) :
    List ClassRecord :=
  ((parts.zip payloads).filter (·.1.1 == package)).flatMap (·.2.classes)

theorem Constant.readAs_map (value : Constant String) : value.ReadAs (value.map .parse) := by
  fun_induction Constant.map ClassId.parse value with
  | case1 value => exact .bool value
  | case2 value => exact .int value
  | case3 bits => exact .double bits
  | case4 value => exact .text value
  | case5 owner name => exact .entry owner name
  | case6 items ih => exact .array (List.forall₂_map_right_iff.2 (List.forall₂_same.2 ih))

/-- What a record is read as does not depend on identities. -/
theorem ClassRecord.ReadAs.of_anonymous {record : ClassRecord} {id : ClassId} {d : ClassDescriptor}
    (h : record.ReadAs id d.anonymous) : record.ReadAs id d := by
  have hclass (a : Annotation) : a.anonymous.annotationClass.classId = a.annotationClass.classId := by
    unfold Annotation.anonymous
    cases a.annotationClass <;> rfl
  refine ⟨h.origin, h.classId, h.kind, h.typeParameters, h.supertypes, ?_⟩
  exact (List.forall₂_map_right_iff.1 h.annotations).imp fun record a ha =>
    ⟨(hclass a).symm.trans ha.classId, ha.arguments⟩

/-! ## Steps that succeed -/

/-- A traversal in which nothing fails makes something of every item. -/
theorem exists_mapM {ε α β : Type} {f : α → Except ε β} {R : α → β → Prop} {items : List α}
    (h : ∀ a ∈ items, ∃ b, f a = .ok b ∧ R a b) :
    ∃ made, items.mapM f = .ok made ∧ List.Forall₂ R items made := by
  induction items with
  | nil => exact ⟨[], rfl, .nil⟩
  | cons a rest ih =>
    obtain ⟨b, hb, hR⟩ := h a List.mem_cons_self
    obtain ⟨made, hmade, hrest⟩ := ih fun k hk => h k (List.mem_cons_of_mem a hk)
    refine ⟨b :: made, ?_, .cons hR hrest⟩
    rw [List.mapM_cons, hb, hmade]
    rfl

/-- A search in lists, one after the other, is a search in all of them. -/
theorem findSomeM?_flatten {ε α β : Type} {f : α → Except ε (Option β)} {q : β → Bool}
    {items : List α} {lists : List (List β)}
    (h : List.Forall₂ (fun a list => f a = .ok (list.find? q)) items lists) :
    items.findSomeM? f = .ok (lists.flatten.find? q) := by
  induction h with
  | nil => rfl
  | @cons a list items lists ha _ ih =>
    rw [List.findSomeM?_cons, ha, List.flatten_cons, List.find?_append]
    cases list.find? q with
    | some b => rfl
    | none => exact ih

/-! ## Services -/

namespace Services

variable {c : Services} {id : ClassId}

/-- A record is searched in the parts of the package alone. -/
theorem Assembled.records (h : c.Assembled) (id : ClassId) :
    (c.recordOf id).map (Option.map (·.2)) =
      (c.parts id.package).findSomeM? fun f => f.recordOf c id.relative := by
  obtain ⟨synthetic, hfragments, hsynthetic⟩ := h.packageFragments id.package
  have hnone : synthetic.findSomeM? (c.recordIn id.relative) = .ok none := by
    refine findSomeM?_none fun f hf => ?_
    cases f with
    | stored f => cases hsynthetic _ hf
    | aliasing a => rfl
    | exported e => rfl
  have hsearch : c.recordOf id =
      (c.parts id.package).findSomeM? fun f => c.recordIn id.relative (.stored f) := by
    rw [recordOf, hfragments, findSomeM?_append, findSomeM?_map, hnone]
    change (c.parts id.package).findSomeM? (fun f => c.recordIn id.relative (.stored f)) >>= _ = _
    rcases (c.parts id.package).findSomeM? _ with e | _ | found <;> rfl
  rw [hsearch, ← findSomeM?_mapped]
  congr
  funext f
  rw [recordIn]
  rcases f.recordOf c id.relative with e | _ | record <;> rfl

/-- Parts of a package have a class when they have a record of it. -/
theorem findSomeM?_meaning (id : ClassId) {fs : List StoredFragment} (h : fs ⊆ c.parts id.package) :
    fs.findSomeM? (fun f => f.meaning c id.relative) =
      fs.findSomeM? (fun f => f.recordOf c id.relative) >>= fun
        | some _ => c.classOf id
        | none => pure none := by
  induction fs with
  | nil => rfl
  | cons f rest ih =>
    obtain ⟨hf, hpackage⟩ := List.mem_filter.1 (h List.mem_cons_self)
    have hid : (⟨f.package, id.relative⟩ : ClassId) = id := by rw [beq_iff_eq.1 hpackage]
    rw [List.findSomeM?_cons, List.findSomeM?_cons, ih fun g hg => h (List.mem_cons_of_mem f hg)]
    rw [StoredFragment.meaning, hid]
    cases hrecord : f.recordOf c id.relative with
    | error e =>
      rw [StoredFragment.hasRecord, hrecord]
      rfl
    | ok found =>
      rw [f.hasRecord_of_recordOf hrecord]
      cases found with
      | none => rfl
      | some record =>
        -- The search ends here: a class with a record may fail to be made, but is never absent.
        change c.classOf id >>= _ = c.classOf id
        cases hclass : c.classOf id with
        | error e => rfl
        | ok v =>
          rw [← hid] at hclass
          obtain ⟨d, rfl⟩ := Option.isSome_iff_exists.1 (classOf_isSome hf ⟨record, hrecord⟩ hclass)
          rfl

/-- The parts of a package have the class that the first record gives. -/
theorem Assembled.inParts_eq_classOf (h : c.Assembled) (id : ClassId) :
    c.inParts id = c.classOf id := by
  have hparts := findSomeM?_meaning id (List.Subset.refl (c.parts id.package))
  rw [← h.records id] at hparts
  refine Eq.trans hparts ?_
  cases hrecord : c.recordOf id with
  | error e =>
    rw [classOf, hrecord]
    rfl
  | ok found =>
    cases found with
    | none =>
      rw [classOf, hrecord]
      rfl
    | some found => rfl

/-- The parts of the services are these, and these payloads are read from them. -/
def Reads (c : Services) (parts : List (QualName × Nat)) (payloads : List Payload) : Prop :=
  List.Forall₂ (fun f part => f.package = part.1.1 ∧ f.reading c = .ok part.2)
    c.provider.storedFragments (parts.zip payloads)

namespace Reads

variable {parts : List (QualName × Nat)} {payloads : List Payload} {record : ClassRecord}

/-- The record of a class is its first declaration. -/
theorem recordOf (h : c.Reads parts payloads) (hc : c.Assembled) (id : ClassId) :
    (c.recordOf id).map (Option.map (·.2)) =
      .ok ((declaredIn id.package parts payloads).find? (·.name == id.relative.text)) := by
  have hpackage : List.Forall₂ (fun f part => f.package = part.1.1 ∧ f.reading c = .ok part.2)
      (c.parts id.package) ((parts.zip payloads).filter (·.1.1 == id.package)) :=
    List.rel_filter (fun f part hf => by simp only [hf.1]) h
  have hrecords : List.Forall₂ (fun f (classes : List ClassRecord) =>
      f.recordOf c id.relative = .ok (classes.find? (·.name == id.relative.text)))
      (c.parts id.package) (((parts.zip payloads).filter (·.1.1 == id.package)).map (·.2.classes)) := by
    refine List.forall₂_map_right_iff.2 (hpackage.imp fun f part hf => ?_)
    rw [StoredFragment.recordOf, hf.2]
    rfl
  rw [hc.records, findSomeM?_flatten hrecords, declaredIn, List.flatMap_def]

theorem exists_recordOf (h : c.Reads parts payloads) (hc : c.Assembled) (id : ClassId) :
    ∃ found, c.recordOf id = .ok found :=
  have ⟨found, hfound, _⟩ := except_map_eq_ok.1 (h.recordOf hc id)
  ⟨found, hfound⟩

theorem annotationOf (h : c.Reads parts payloads) (hc : c.Assembled) (record : AnnotationRecord) :
    ∃ a, c.annotationOf record = .ok a ∧ record.ReadAs a := by
  have harguments : List.Forall₂
      (fun given (read : Name × Constant ClassId) => read.1.text = given.1 ∧ given.2.ReadAs read.2)
      record.arguments (record.arguments.map fun given => (⟨given.1⟩, given.2.map ClassId.parse)) :=
    List.forall₂_map_right_iff.2 (List.forall₂_same.2 fun given _ => ⟨rfl, given.2.readAs_map⟩)
  obtain ⟨found, hfound⟩ := h.exists_recordOf hc (.parse record.className)
  rw [Services.annotationOf, hfound]
  cases found with
  | none => exact ⟨_, rfl, rfl, harguments⟩
  | some found => exact ⟨_, rfl, rfl, harguments⟩

theorem classOf_declared (h : c.Reads parts payloads) (hc : c.Assembled)
    (hfirst : (declaredIn id.package parts payloads).find? (·.name == id.relative.text) = some record) :
    ∃ d, c.classOf id = .ok (some d) ∧ record.ReadAs id d := by
  have hrecord := h.recordOf hc id
  rw [hfirst] at hrecord
  obtain ⟨found, hfound, hrecord⟩ := except_map_eq_ok.1 hrecord
  obtain ⟨⟨f, record'⟩, rfl, rfl⟩ := Option.map_eq_some_iff.1 hrecord
  have hannotated : ∀ r ∈ record'.annotations, ∃ a, c.annotationOf r = .ok a ∧ r.ReadAs a :=
    fun r _ => h.annotationOf hc r
  obtain ⟨annotations, hannotations, hread⟩ := exists_mapM hannotated
  refine ⟨.ofRecord 0 id record' annotations, ?_, rfl, rfl, rfl, rfl, rfl, hread⟩
  rw [classOf, hfound]
  change some <$> c.classFrom id record' = _
  rw [classFrom, hannotations]
  rfl

theorem classOf_undeclared (h : c.Reads parts payloads) (hc : c.Assembled)
    (hnone : (declaredIn id.package parts payloads).find? (·.name == id.relative.text) = none) :
    c.classOf id = .ok none := by
  have hrecord := h.recordOf hc id
  rw [hnone] at hrecord
  obtain ⟨found, hfound, hrecord⟩ := except_map_eq_ok.1 hrecord
  obtain rfl := Option.map_eq_none_iff.1 hrecord
  rw [classOf, hfound]
  rfl

theorem exists_classOf (h : c.Reads parts payloads) (hc : c.Assembled) (id : ClassId) :
    ∃ v, c.classOf id = .ok v := by
  cases hfirst : (declaredIn id.package parts payloads).find? (·.name == id.relative.text) with
  | none => exact ⟨none, h.classOf_undeclared hc hfirst⟩
  | some record =>
    obtain ⟨d, hd, -⟩ := h.classOf_declared hc hfirst
    exact ⟨some d, hd⟩

/-- Beside the parts there are classes of other packages and declarations that are exported. -/
theorem meaning_beside (h : c.Reads parts payloads) (hc : c.Assembled) (hnone : c.classOf id = .ok none)
    {f : Fragment} (hf : f ∈ c.provider.fragments) (hstored : f.stored? = none) :
    ∃ v, f.meaning c id.relative = .ok v ∧
      ∀ d, v = some d → d.origin = .deserialized → d.classId ≠ id := by
  obtain ⟨package, htargets, hexported⟩ := hc.interop
  have hbinds : c.Binds package := ⟨htargets, hexported⟩
  cases f with
  | stored f => cases hstored
  | aliasing a =>
    -- An alias shows classes under their own ids. One with this id would be in the parts.
    obtain ⟨v, hv⟩ := h.exists_classOf hc ⟨package, id.relative⟩
    refine ⟨v, ?_, fun d hd _ hid => ?_⟩
    · exact (hbinds.alias_meaning hf id.relative).trans ((hc.inParts_eq_classOf _).trans hv)
    · rw [hd] at hv
      rw [← classId_of_classOf hv, hid, hnone] at hv
      cases hv
  | exported e =>
    refine ⟨e.meaning id.relative, rfl, fun d hd horigin => ?_⟩
    obtain ⟨declaration, -, rfl⟩ := Option.map_eq_some_iff.1 hd
    cases horigin

theorem found_undeclared (h : c.Reads parts payloads) (hc : c.Assembled)
    (hnone : (declaredIn id.package parts payloads).find? (·.name == id.relative.text) = none) :
    ∃ v, c.found id = .ok v ∧ ∀ d, v = some d → d.origin = .deserialized → d.classId ≠ id := by
  have hclass := h.classOf_undeclared hc hnone
  obtain ⟨synthetic, hfragments, hsynthetic⟩ := hc.packageFragments id.package
  have hbeside {f : Fragment} (hf : f ∈ synthetic) := h.meaning_beside hc hclass
    (Provider.mem_packageFragments.1 (hfragments ▸ List.mem_append_right _ hf)).1 (hsynthetic f hf)
  have hfound : c.found id = synthetic.findSomeM? (Fragment.meaning c id.relative) := by
    rw [found, hfragments, findSomeM?_append, findSomeM?_map]
    change c.inParts id >>= _ = _
    rw [hc.inParts_eq_classOf, hclass]
    rfl
  obtain ⟨v, hv, -⟩ := findSomeM?_ok fun f hf => (hbeside hf).imp fun _ => And.left
  refine ⟨v, hfound.trans hv, fun d hd => ?_⟩
  rw [hd] at hv
  obtain ⟨f, hf, hmeans⟩ := mem_of_findSomeM? hv
  obtain ⟨w, hw, hother⟩ := hbeside hf
  exact hother d (Except.ok.inj (hw.symm.trans hmeans))

end Reads

end Services

/-! ## Libraries -/

namespace Library

/-- The bytes of the part decode to the payload, in a version that the services may read. -/
def DecodesPart (l : Library) (c : Services) (part : QualName × Nat) (p : Payload) : Prop :=
  ∃ bytes, l.payload part.1 part.2 = .ok bytes ∧ c.decoder part.1 bytes = .ok p ∧
    (c.policy.skipVersionCheck = true ∨ p.version.isCompatibleWith .current = true)

/-- The header of the library lists these parts, and each of them decodes to the payload in its
place. -/
structure Decodes (l : Library) (c : Services) (parts : List (QualName × Nat))
    (payloads : List Payload) : Prop where
  listed : ∃ bytes header, l.header = .ok bytes ∧ Header.parse l.name bytes = .ok header ∧
    parts = numberParts [] (header.packages.map .ofText)
  decoded : List.Forall₂ (l.DecodesPart c) parts payloads

variable {l : Library} {c : Services} {parts : List (QualName × Nat)} {payloads : List Payload}

/-- The services have the parts that the header lists. -/
theorem Gives.numbered (h : l.Gives c) {bytes : Bytes} {header : Header} (hbytes : l.header = .ok bytes)
    (hheader : Header.parse l.name bytes = .ok header) :
    c.provider.storedFragments.map (fun f => (f.package, f.part)) =
      numberParts [] (header.packages.map .ofText) := by
  obtain ⟨bytes', header', reports, hbytes', hheader', hstored⟩ := h.lists
  obtain rfl := Except.ok.inj (hbytes.symm.trans hbytes')
  obtain rfl := Except.ok.inj (hheader.symm.trans hheader')
  have hmap := congrArg (List.map fun f : StoredFragment => (f.package, f.part)) hstored
  rw [storedOf, List.map_map, List.map_map] at hmap
  exact hmap.trans (List.map_id _)

/-- What is decoded is what the parts read. -/
theorem reads_of_decoded {fs : List StoredFragment} (hl : ∀ f ∈ fs, f.library = l)
    (h : List.Forall₂ (fun f p => l.DecodesPart c (f.package, f.part) p) fs payloads) :
    List.Forall₂ (fun f part => f.package = part.1.1 ∧ f.reading c = .ok part.2) fs
      ((fs.map fun f => (f.package, f.part)).zip payloads) := by
  induction h with
  | nil => exact .nil
  | @cons f p fs payloads hpart _ ih =>
    obtain ⟨bytes, hbytes, hdecode, hversion⟩ := hpart
    have hf : f.library = l := hl f List.mem_cons_self
    refine .cons ⟨rfl, ?_⟩ (ih fun g hg => hl g (List.mem_cons_of_mem f hg))
    rw [StoredFragment.reading_of_ok (hf ▸ hbytes) hdecode]
    rcases hversion with hskip | hversion
    · simp [hskip]
    · simp [hversion]

theorem Gives.reads (h : l.Gives c) (hd : l.Decodes c parts payloads) : c.Reads parts payloads := by
  obtain ⟨bytes, header, hbytes, hheader, hparts⟩ := hd.listed
  have hdecoded := hd.decoded
  obtain rfl := hparts.trans (h.numbered hbytes hheader).symm
  exact reads_of_decoded (fun f hf => h.library hf) (List.forall₂_map_left_iff.1 hdecoded)

/-- A library that stores payloads under a header with their packages decodes to them. -/
theorem Stores.decodes {header : Header} (h : l.Stores header payloads) (hheader : header.Storable)
    (hpayloads : ∀ p ∈ payloads, p.Storable) (hlisted : header.packages = payloads.map (·.package))
    (hdecoder : c.decoder = .binary) :
    l.Decodes c (numberParts [] (payloads.map Payload.packageName)) payloads where
  listed := by
    refine ⟨header.file, header, h.header, ?_, ?_⟩
    · rw [Header.parse, hheader.decode_file]
      rfl
    · rw [hlisted, List.map_map]
      rfl
  decoded := by
    refine List.forall₂_iff_zip.2 ⟨by simp [length_numberParts], fun {part p} hmem => ?_⟩
    have hp := lookup_of_mem (Payload.nodup_keys_numbered payloads) hmem
    obtain ⟨hbytes, hdecode, hversion⟩ := h.part_decodes hpayloads hp
    exact ⟨p.write, hbytes, hdecoder ▸ hdecode, .inr hversion⟩

end Library

namespace Module

variable {S : Session} {m : Module} {c : Services} {l : Library} {parts : List (QualName × Nat)}
  {payloads : List Payload}

/-- **Classes are found as they are declared.** Take a module in use, whose library lists parts that can
all be read. In every package, under every name, it has a class of that id that comes from a payload
exactly when a part of the package declares one. It is then as the first declaration says. -/
theorem findClass_faithful (hS : S.Reachable) (hm : m ∈ S.modulesInUse)
    (hc : m.services? S.store = some c) (hl : l.Gives c) (hd : l.Decodes c parts payloads)
    (id : ClassId) :
    ∃ found t, (m.findClass id).runOn S.store = (.ok found, t) ∧
      ((∃ d, found = some d ∧ d.origin = .deserialized ∧ d.classId = id) ↔
        ∃ record ∈ declaredIn id.package parts payloads, record.name = id.relative.text) ∧
      ∀ record, (declaredIn id.package parts payloads).find? (·.name == id.relative.text) = some record →
        ∃ d, found = some d ∧ record.ReadAs id d := by
  have hs := hS.sound.store
  have hserves : S.store.Serves c := ⟨knows_of_services? hc, hS.sound.live m hm c hc⟩
  have hassembled := hS.store.tidy.assembled c hserves.knows
  have hanswers := Services.findClass_answers hs hserves id
  cases hfirst : (declaredIn id.package parts payloads).find? (·.name == id.relative.text) with
  | none =>
    have hnot : ∀ record ∈ declaredIn id.package parts payloads, record.name ≠ id.relative.text := by
      simpa using hfirst
    obtain ⟨v, hv, hother⟩ := (hl.reads hd).found_undeclared hassembled hfirst
    rw [hv] at hanswers
    obtain ⟨found, t, hrun, hshown, -⟩ := hanswers.runOn_eq
    refine ⟨found, t, (runOn_findClass hc _).trans hrun, ?_, nofun⟩
    constructor
    · rintro ⟨d, rfl, horigin, hid⟩
      exact absurd hid (hother d.anonymous hshown.symm horigin)
    · rintro ⟨record, hrecord, hname⟩
      exact absurd hname (hnot record hrecord)
  | some record =>
    obtain ⟨d, hclass, hread⟩ := (hl.reads hd).classOf_declared hassembled hfirst
    have hfound := Services.found_of_inParts hassembled
      ((hassembled.inParts_eq_classOf id).trans hclass)
    rw [hfound] at hanswers
    obtain ⟨found, t, hrun, hshown, -⟩ := hanswers.runOn_eq
    obtain ⟨d, rfl, rfl⟩ := Option.map_eq_some_iff.1 hshown
    have hread := hread.of_anonymous
    have hdeclared : ∃ record ∈ declaredIn id.package parts payloads, record.name = id.relative.text :=
      ⟨record, List.mem_of_find?_eq_some hfirst, by simpa using List.find?_some hfirst⟩
    refine ⟨some d, t, (runOn_findClass hc _).trans hrun,
      iff_of_true ⟨d, rfl, hread.origin, hread.classId⟩ hdeclared, fun record' hrecord' => ?_⟩
    obtain rfl := Option.some.inj hrecord'
    exact ⟨d, rfl, hread⟩

end Module

/-- The library that payloads are built into is loaded into a module in use, and decodes to them. -/
theorem MemoryLibrary.ofPayloads?_loads (name moduleName : String) (manifest : Manifest)
    (payloads : List Payload) (other : MemoryLibrary) (hpayloads : ∀ p ∈ payloads, p.Storable)
    (hheader : (Header.mk moduleName (payloads.map (·.package) ++ [])).Storable)
    (hmanifest : manifest.Consistent) :
    let l := ((ofPayloads? name moduleName manifest payloads []).getD other).toLibrary
    let S := Session.load {} l {}
    ∃ m c, m ∈ S.modulesInUse ∧ m.services? S.store = some c ∧ l.Gives c ∧
      l.Decodes c (numberParts [] (payloads.map Payload.packageName)) payloads := by
  obtain ⟨l, hl, rfl, hstores, -⟩ := ofPayloads?_stores name manifest hpayloads hheader
  rw [hl, Option.getD_some]
  obtain ⟨d, hservices, -⟩ := hstores.servicesOf hheader hmanifest {}
  rcases Module.load_cases Store.sound_start l.toLibrary {} with
    ⟨e, t, herror, -, -⟩ | ⟨m, c, t, hc, hrun, hloads⟩
  · cases hservices.symm.trans herror
  have hdecoder : c.anonymous.decoder = .binary := Module.decoder_of_servicesOf hc
  have hload : Session.load {} l.toLibrary {} = Session.hold { store := t } m :=
    Session.load_of_ok hrun
  refine ⟨m, c, (Session.presents_load Session.sound_start hrun).1, ?_, ⟨{}, hc⟩,
    hstores.decodes hheader hpayloads (List.append_nil _) hdecoder⟩
  rw [hload]
  exact hloads.services?_self

/-- A class with an annotation that has a nested array for an argument. -/
def ClassRecord.clip : ClassRecord :=
  ⟨"Clip", .interface, 0, ["media/Track"],
    [⟨"media/Level", [("all", .array [.array [.entry "media/Level" "HIGH"], .int 3])]⟩]⟩

/-- A package in two parts that both declare a class, and a part in a reserved namespace with a class
of a name that the package has as well. -/
def Payload.media : List Payload :=
  [⟨"media", .current, [⟨"Track", .plain, 1, [], []⟩], [], []⟩,
    ⟨"cnames.structs", .current, [.clip], [], []⟩,
    ⟨"media", .current, [⟨"Clip", .object, 0, [], []⟩, ⟨"Track", .enumeration, 0, [], []⟩], [], []⟩]

def Library.media : Library :=
  ((MemoryLibrary.ofPayloads? "media" "media" ((Manifest.empty.withPackage "media").withInterop true)
    Payload.media []).getD ⟨"media", .empty, [], []⟩).toLibrary

theorem Library.media_loads :
    let S := Session.load {} Library.media {}
    ∃ m c, m ∈ S.modulesInUse ∧ m.services? S.store = some c ∧ Library.media.Gives c ∧
      Library.media.Decodes c (numberParts [] (Payload.media.map Payload.packageName)) Payload.media :=
  MemoryLibrary.ofPayloads?_loads _ _ _ _ _ (by decide +kernel) (by decide +kernel) (by decide +kernel)

/-- The class that both parts declare is as the first one says, and the class in the reserved namespace
is the one of the part there. -/
theorem Module.findClass_faithful_media :
    let S := Session.load {} Library.media {}
    ∃ m c, m ∈ S.modulesInUse ∧ m.services? S.store = some c ∧ Library.media.Gives c ∧
      Library.media.Decodes c (numberParts [] (Payload.media.map Payload.packageName)) Payload.media ∧
      (∃ d t, (m.findClass (.parse "media/Track")).runOn S.store = (.ok (some d), t) ∧
        ClassRecord.ReadAs ⟨"Track", .plain, 1, [], []⟩ (.parse "media/Track") d) ∧
      ∃ d t, (m.findClass (.parse "cnames.structs/Clip")).runOn S.store = (.ok (some d), t) ∧
        ClassRecord.clip.ReadAs (.parse "cnames.structs/Clip") d := by
  intro S
  obtain ⟨m, c, hm, hmc, hgives, hdecodes⟩ := Library.media_loads
  have hS : S.Reachable := .single (.loaded _ _)
  refine ⟨m, c, hm, hmc, hgives, hdecodes, ?_, ?_⟩
  · obtain ⟨found, t, hfind, -, hread⟩ :=
      findClass_faithful hS hm hmc hgives hdecodes (.parse "media/Track")
    obtain ⟨d, rfl, hd⟩ := hread _ rfl
    exact ⟨d, t, hfind, hd⟩
  · obtain ⟨found, t, hfind, -, hread⟩ :=
      findClass_faithful hS hm hmc hgives hdecodes (.parse "cnames.structs/Clip")
    obtain ⟨d, rfl, hd⟩ := hread _ rfl
    exact ⟨d, t, hfind, hd⟩

end SymbolAtlas
