import Mathlib.Data.List.Nodup
import SymbolAtlas.Library
import SymbolAtlas.Proofs.Except
import SymbolAtlas.Proofs.Header
import SymbolAtlas.Proofs.Payload

namespace SymbolAtlas

/-! ## Numbered names -/

section

variable {seen names listed written : List QualName}

theorem length_numberParts (seen names : List QualName) :
    (numberParts seen names).length = names.length := by
  induction names generalizing seen with
  | nil => rfl
  | cons name rest ih => simp [numberParts, ih]

theorem getElem?_numberParts (seen names : List QualName) (i : Nat) : (numberParts seen names)[i]? =
    names[i]?.map fun name => (name, seen.count name + (names.take i).count name) := by
  induction names generalizing seen i with
  | nil => rfl
  | cons name rest ih =>
    cases i with
    | zero => simp [numberParts]
    | succ i =>
      rw [numberParts, List.getElem?_cons_succ, ih, List.getElem?_cons_succ]
      congr
      funext x
      rw [List.take_succ_cons, List.count_cons, List.count_cons]
      congr 1
      omega

theorem map_fst_numberParts (seen names : List QualName) :
    (numberParts seen names).map (·.1) = names := by
  induction names generalizing seen with
  | nil => rfl
  | cons name rest ih => rw [numberParts, List.map_cons, ih]

theorem getElem?_numberParts_eq_some {i : Nat} {x : QualName × Nat} :
    (numberParts [] names)[i]? = some x ↔ names[i]? = some x.1 ∧ (names.take i).count x.1 = x.2 := by
  simp only [getElem?_numberParts, List.count_nil, Nat.zero_add, Option.map_eq_some_iff]
  constructor
  · rintro ⟨name, hname, rfl⟩
    exact ⟨hname, rfl⟩
  · rintro ⟨hname, hcount⟩
    exact ⟨x.1, hname, Prod.ext rfl hcount⟩

theorem mem_numberParts {x : QualName × Nat} : x ∈ numberParts seen names ↔
    seen.count x.1 ≤ x.2 ∧ x.2 < seen.count x.1 + names.count x.1 := by
  obtain ⟨package, part⟩ := x
  induction names generalizing seen with
  | nil =>
    simp only [numberParts, List.not_mem_nil, List.count_nil, false_iff]
    omega
  | cons name rest ih =>
    rw [numberParts, List.mem_cons, ih, Prod.mk.injEq]
    simp only [List.count_cons, beq_iff_eq]
    by_cases h : name = package
    · subst h
      simp only [if_true, true_and]
      omega
    · rw [if_neg h]
      have hne : package ≠ name := Ne.symm h
      simp only [hne, false_and, false_or]
      omega

theorem nodup_numberParts (seen names : List QualName) : (numberParts seen names).Nodup := by
  induction names generalizing seen with
  | nil => exact List.nodup_nil
  | cons name rest ih =>
    refine List.nodup_cons.2 ⟨fun h => ?_, ih _⟩
    have hle := (mem_numberParts.1 h).1
    rw [List.count_cons_self] at hle
    exact Nat.not_succ_le_self _ hle

/-- The name at `i` in one list and the name at `k` in another are of one package, with as many of
the package before the one as before the other. -/
def SamePart (listed written : List QualName) (i k : Nat) : Prop :=
  ∃ package, listed[i]? = some package ∧ written[k]? = some package ∧
    (listed.take i).count package = (written.take k).count package

variable {i j k : Nat}

theorem samePart_iff : SamePart listed written i k ↔
    ∃ x, (numberParts [] listed)[i]? = some x ∧ (numberParts [] written)[k]? = some x := by
  simp only [getElem?_numberParts_eq_some]
  constructor
  · rintro ⟨package, hi, hk, hcount⟩
    exact ⟨(package, _), ⟨hi, rfl⟩, hk, hcount.symm⟩
  · rintro ⟨⟨package, part⟩, ⟨hi, hcount⟩, hk, hcount'⟩
    exact ⟨package, hi, hk, hcount.trans hcount'.symm⟩

theorem numberParts_inj {x : QualName × Nat} (hi : (numberParts seen names)[i]? = some x)
    (hj : (numberParts seen names)[j]? = some x) : i = j :=
  have hlt : i < (numberParts seen names).length := (List.getElem?_eq_some_iff.1 hi).1
  (List.getElem?_inj hlt (nodup_numberParts seen names)).1 (hi.trans hj.symm)

theorem SamePart.lt_length (h : SamePart listed written i k) : k < written.length := by
  obtain ⟨package, -, hk, -⟩ := h
  exact (List.getElem?_eq_some_iff.1 hk).1

/-- Only one name is the same part as a name of the other list. -/
theorem SamePart.unique (h : SamePart listed written i k) (h' : SamePart listed written j k) :
    i = j := by
  obtain ⟨x, hi, hk⟩ := samePart_iff.1 h
  obtain ⟨y, hj, hk'⟩ := samePart_iff.1 h'
  obtain rfl := Option.some.inj (hk.symm.trans hk')
  exact numberParts_inj hi hj

theorem samePart_self {package : QualName} (h : names[i]? = some package) :
    SamePart names names i i :=
  ⟨package, h, h, rfl⟩

/-- A name has its part in the other list unless that one has fewer of the package. -/
theorem exists_samePart {package : QualName} (hi : listed[i]? = some package)
    (h : (listed.take i).count package < written.count package) :
    ∃ k, SamePart listed written i k := by
  have hmem : (package, (listed.take i).count package) ∈ numberParts [] written :=
    mem_numberParts.2 ⟨Nat.zero_le _, by simpa using h⟩
  obtain ⟨k, hk⟩ := List.mem_iff_getElem?.1 hmem
  exact ⟨k, samePart_iff.2 ⟨_, getElem?_numberParts_eq_some.2 ⟨hi, rfl⟩, hk⟩⟩

end

/-! ## Headers -/

namespace Header

/-- A header that can be written and read: it has a name, its packages have names that they can have,
and it is not too long. -/
structure Storable (h : Header) : Prop where
  named : h.moduleName ≠ ""
  packages : ∀ name ∈ h.packages, QualName.validPackage name = true
  encodes : h.encode?.isSome

instance (h : Header) : Decidable h.Storable :=
  decidable_of_iff (h.moduleName ≠ "" ∧ (∀ name ∈ h.packages, QualName.validPackage name = true) ∧
      h.encode?.isSome)
    ⟨fun ⟨hnamed, hpackages, hencodes⟩ => ⟨hnamed, hpackages, hencodes⟩,
      fun h => ⟨h.named, h.packages, h.encodes⟩⟩

def file (h : Header) : Bytes :=
  magic ++ h.body

variable {h : Header}

theorem encode?_eq_some (henc : h.encode?.isSome) :
    h.encode? = some h.file ∧ h.body.length ≤ sizeLimit := by
  unfold encode? at henc ⊢
  split
  · rename_i hle
    exact ⟨rfl, hle⟩
  · rename_i hlt
    simp [hlt] at henc

theorem takes_body (hlen : h.body.length ≤ sizeLimit) : Binary.Takes read h.body h := by
  have hsize : h.body.length < UInt64.size := Nat.lt_of_le_of_lt hlen (by decide)
  unfold body at hsize ⊢
  rw [List.length_append] at hsize
  exact (Binary.takes_writeText (by omega)).bind (Binary.takes_writeTexts _ (by omega)).returns

theorem Storable.valid (hh : h.Storable) : h.Valid :=
  ⟨hh.named, hh.packages⟩

/-- Headers read back. -/
theorem Storable.decode_file (hh : h.Storable) : decode h.file = .ok h :=
  decode_eq_ok.2 ⟨h.body, rfl, takes_body (encode?_eq_some hh.encodes).2, hh.valid⟩

end Header

/-! ## Payloads -/

namespace Payload

/-- A payload that can be written as a part of its package and read by any module. -/
structure Storable (p : Payload) : Prop where
  package : QualName.validPackage p.package = true
  trimmed : Text.trim p.package.toList = p.package.toList
  version : p.version.isCompatibleWith .current = true
  encodes : p.encode?.isSome

instance (p : Payload) : Decidable p.Storable :=
  decidable_of_iff (QualName.validPackage p.package = true ∧
      Text.trim p.package.toList = p.package.toList ∧
      p.version.isCompatibleWith .current = true ∧ p.encode?.isSome)
    ⟨fun ⟨hpackage, htrimmed, hversion, hencodes⟩ => ⟨hpackage, htrimmed, hversion, hencodes⟩,
      fun h => ⟨h.package, h.trimmed, h.version, h.encodes⟩⟩

def packageName (p : Payload) : QualName :=
  QualName.ofText p.package

variable {p : Payload} {payloads : List Payload}

theorem Storable.text_packageName (h : p.Storable) : p.packageName.text = p.package := by
  rw [packageName, QualName.ofText, QualName.text_ofChars, h.trimmed, String.ofList_toList]

theorem Storable.isValidPackage (h : p.Storable) : p.packageName.isValidPackage = true := by
  rw [QualName.isValidPackage, h.text_packageName, h.package]

theorem Storable.encode? (h : p.Storable) : p.encode? = some p.write := by
  have henc := h.encodes
  unfold Payload.encode? at henc ⊢
  split
  · rfl
  · rename_i hlt
    simp [hlt] at henc

theorem Storable.decode_write (h : p.Storable) : decode p.packageName p.write = .ok p := by
  simp only [decode, (takes_encode h.encode?).all, h.text_packageName, if_true]

/-- The payloads with their packages and their numbers in their packages. -/
def numbered (payloads : List Payload) : List ((QualName × Nat) × Payload) :=
  (numberParts [] (payloads.map packageName)).zip payloads

theorem keys_numbered (payloads : List Payload) :
    (numbered payloads).map (·.1) = numberParts [] (payloads.map packageName) :=
  List.map_fst_zip (by simp [length_numberParts])

theorem nodup_keys_numbered (payloads : List Payload) : ((numbered payloads).map (·.1)).Nodup := by
  rw [keys_numbered]
  exact nodup_numberParts _ _

theorem packageName_of_mem_numbered {x : (QualName × Nat) × Payload} (h : x ∈ numbered payloads) :
    x.1.1 = x.2.packageName ∧ x.2 ∈ payloads := by
  obtain ⟨k, hk⟩ := List.mem_iff_getElem?.1 h
  obtain ⟨hpart, hpayload⟩ := List.getElem?_zip_eq_some.1 hk
  rw [getElem?_numberParts, List.getElem?_map, hpayload] at hpart
  exact ⟨congrArg Prod.fst (Option.some.inj hpart).symm, List.mem_of_getElem? hpayload⟩

/-- A part is looked up at its number. -/
theorem lookup_numbered {x : QualName × Nat} {k : Nat}
    (hx : (numberParts [] (payloads.map packageName))[k]? = some x) (hp : payloads[k]? = some p) :
    (numbered payloads).lookup x = some p := by
  have hmem : (x, p) ∈ numbered payloads :=
    List.mem_of_getElem? (List.getElem?_zip_eq_some.2 ⟨hx, hp⟩)
  exact lookup_of_mem (nodup_keys_numbered payloads) hmem

theorem lookup_numbered_eq_none {x : QualName × Nat} :
    (numbered payloads).lookup x = none ↔ (payloads.map packageName).count x.1 ≤ x.2 := by
  have hmem : ((numbered payloads).lookup x).isSome ↔
      x ∈ numberParts [] (payloads.map packageName) := by
    rw [← keys_numbered, List.lookup_isSome_iff, List.mem_map]
    exact exists_congr fun e => and_congr_right fun _ => beq_iff_eq.trans eq_comm
  rw [← Option.not_isSome_iff_eq_none, hmem, mem_numberParts]
  simp only [List.count_nil, Nat.zero_le, true_and, Nat.zero_add, Nat.not_lt]

end Payload

/-! ## Libraries -/

/-- A library that binds native declarations states its package. -/
def Manifest.Consistent (m : Manifest) : Prop :=
  m.isInterop = true → m.package ≠ none

instance (m : Manifest) : Decidable m.Consistent :=
  inferInstanceAs (Decidable (m.isInterop = true → m.package ≠ none))

/-- The library gives the header, and of each package its payloads in their order. -/
structure Library.Stores (l : Library) (header : Header) (payloads : List Payload) : Prop where
  header : l.header = .ok header.file
  part : ∀ x p, (Payload.numbered payloads).lookup x = some p → l.payload x.1 x.2 = .ok p.write
  missing : ∀ x, (Payload.numbered payloads).lookup x = none →
    ∃ fault, l.payload x.1 x.2 = .error fault

namespace MemoryLibrary

theorem mapM_encode? {payloads : List Payload} (h : ∀ p ∈ payloads, p.Storable) :
    payloads.mapM (·.encode?) = some (payloads.map Payload.write) := by
  induction payloads with
  | nil => rfl
  | cons p rest ih =>
    obtain ⟨hp, hrest⟩ := List.forall_mem_cons.1 h
    simp [hp.encode?, ih hrest]

theorem lookup_map {κ α β : Type} [BEq κ] (f : α → β) (entries : List (κ × α)) (key : κ) :
    (entries.map (Prod.map id f)).lookup key = (entries.lookup key).map f := by
  induction entries with
  | nil => rfl
  | cons e rest ih =>
    obtain ⟨k, a⟩ := e
    change ((k, f a) :: rest.map (Prod.map id f)).lookup key = _
    rw [List.lookup_cons, List.lookup_cons, ih]
    cases key == k <;> rfl

/-- The library that payloads are built into gives them, under its own header or another one. -/
theorem ofPayloads?_stores (name : String) (manifest : Manifest) {moduleName : String}
    {payloads : List Payload} {declared : List String} (hpayloads : ∀ p ∈ payloads, p.Storable)
    (hheader : (Header.mk moduleName (payloads.map (·.package) ++ declared)).Storable) :
    ∃ l, ofPayloads? name moduleName manifest payloads declared = some l ∧ l.manifest = manifest ∧
      l.toLibrary.Stores ⟨moduleName, payloads.map (·.package) ++ declared⟩ payloads ∧
      ∀ header : Header,
        ({ l with header := header.file } : MemoryLibrary).toLibrary.Stores header payloads := by
  have henc := (Header.encode?_eq_some hheader.encodes).1
  let parts := (numberParts [] (payloads.map Payload.packageName)).zip (payloads.map Payload.write)
  have hparts : parts = (Payload.numbered payloads).map (Prod.map id Payload.write) :=
    List.zip_map_right
  have hstores (header : Header) :
      (toLibrary ⟨name, manifest, header.file, parts⟩).Stores header payloads := by
    refine ⟨rfl, fun x p hx => ?_, fun x hx => ?_⟩
    · simp only [toLibrary, hparts, lookup_map, hx]
      rfl
    · simp only [toLibrary, hparts, lookup_map, hx]
      exact ⟨_, rfl⟩
  refine ⟨⟨name, manifest, _, parts⟩, ?_, rfl, hstores _, hstores⟩
  simp only [ofPayloads?, henc, mapM_encode? hpayloads]
  rfl

end MemoryLibrary

end SymbolAtlas
