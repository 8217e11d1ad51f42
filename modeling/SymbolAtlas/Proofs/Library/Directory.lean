import SymbolAtlas.Proofs.Files
import SymbolAtlas.Proofs.Library.Parts
import SymbolAtlas.Proofs.Name

namespace SymbolAtlas

namespace DirectoryLibrary

open Files Files.Edit

/-! ## Names of files -/

theorem head?_packageDirName (package : QualName) :
    (packageDirName package).toList.head? = some 'p' := by
  simp [packageDirName]

theorem isName_packageDirName {package : QualName} (h : package.isValidPackage = true) :
    Path.IsName (packageDirName package) := by
  have hne (name : String) (hname : name.toList.head? ≠ some 'p') : packageDirName package ≠ name :=
    fun heq => hname (heq ▸ head?_packageDirName package)
  refine ⟨hne "" (by decide), ?_, ?_⟩
  · simpa [packageDirName] using QualName.slash_not_mem_of_validPackage h
  · simp [Tree.isMove, hne "." (by decide), hne ".." (by decide)]

theorem packageDirName_ne_module (package : QualName) : packageDirName package ≠ "module" := by
  intro heq
  have hhead := head?_packageDirName package
  rw [heq] at hhead
  exact absurd hhead (by decide)

theorem toList_toString (n : Nat) : (toString n).toList = Nat.toDigits 10 n := by
  rw [Nat.toString_eq_ofList_toDigits, String.toList_ofList]

theorem not_mem_toString {c : Char} (hc : c.isDigit = false) (n : Nat) : c ∉ (toString n).toList := by
  intro hmem
  rw [toList_toString] at hmem
  rw [Nat.isDigit_of_mem_toDigits (by decide) (by decide) hmem] at hc
  cases hc

theorem isName_toString (n : Nat) : Path.IsName (toString n) := by
  refine ⟨?_, not_mem_toString (by decide) n, ?_⟩
  · intro hempty
    have hdigits := toList_toString n
    rw [hempty] at hdigits
    exact Nat.toDigits_ne_nil hdigits.symm
  · simp only [Tree.isMove, Bool.or_eq_false_iff, beq_eq_false_iff_ne]
    constructor <;> intro hmove <;> exact not_mem_toString (c := '.') (by decide) n (by rw [hmove]; decide)

theorem packageDirName_inj {a b : QualName} : packageDirName a = packageDirName b ↔ a = b := by
  rw [packageDirName, packageDirName, String.append_right_inj, QualName.text_inj]

theorem toString_inj {m n : Nat} : toString m = toString n ↔ m = n := by
  refine ⟨fun h => ?_, fun h => h ▸ rfl⟩
  rw [Nat.toString_eq_ofList_toDigits, Nat.toString_eq_ofList_toDigits, String.ofList_inj] at h
  calc m = Nat.ofDigitChars 10 (Nat.toDigits 10 m) 0 := Nat.ofDigitChars_ten_toDigits.symm
    _ = Nat.ofDigitChars 10 (Nat.toDigits 10 n) 0 := by rw [h]
    _ = n := Nat.ofDigitChars_ten_toDigits

theorem isName_manifest : Path.IsName "manifest" := ⟨by decide, by decide, by decide⟩

theorem isName_linkdata : Path.IsName "linkdata" := ⟨by decide, by decide, by decide⟩

theorem isName_module : Path.IsName "module" := ⟨by decide, by decide, by decide⟩

/-! ## What is written -/

def linkdataPlace (place : Place) : Place :=
  place ++ ["linkdata"]

def packagePlace (place : Place) (package : QualName) : Place :=
  linkdataPlace place ++ [packageDirName package]

def partPlace (place : Place) (part : QualName × Nat) : Place :=
  packagePlace place part.1 ++ [toString part.2]

/-- The library at `root` is written, with these parts of its packages. -/
structure Written (t : Tree) (root : Path) (place : Place) (manifest header : Bytes)
    (parts : List ((QualName × Nat) × Payload)) : Prop where
  root : t.Leads root place
  directory : t.get? place = some .directory
  linkdata : t.get? (linkdataPlace place) = some .directory
  manifest : t.get? (place ++ ["manifest"]) = some (.file manifest)
  header : t.get? (linkdataPlace place ++ ["module"]) = some (.file header)
  package : ∀ package contents, t.get? (packagePlace place package) ≠ some (.file contents)
  packages : ∀ x ∈ parts, t.get? (packagePlace place x.1.1) = some .directory
  part : ∀ x, t.get? (partPlace place x) = (parts.lookup x).map fun p => .file p.write

variable {t u : Tree} {root : Path} {place : Place} {manifest header : Bytes}
  {parts : List ((QualName × Nat) × Payload)}

theorem Written.leads_linkdata (h : Written t root place manifest header parts) :
    t.Leads (linkdataPath root) (linkdataPlace place) :=
  h.root.join isName_linkdata h.directory (by decide)

theorem partPlace_inj {x y : QualName × Nat} : partPlace place x = partPlace place y ↔ x = y := by
  obtain ⟨a, m⟩ := x
  obtain ⟨b, n⟩ := y
  simp [-Nat.toString_eq_repr, partPlace, packagePlace, packageDirName_inj, toString_inj]

/-- The directory of a package is there or is made. -/
theorem Written.makeDir (h : Written t root place manifest header parts) {package : QualName}
    (hpackage : package.isValidPackage = true) (hfits : (packagePath root package).Fits) :
    ∃ u, (Edit.makeDir (packagePath root package)).Makes t () u ∧
      t.Puts (packagePlace place package) .directory u :=
  h.leads_linkdata.makeDir (isName_packageDirName hpackage) h.linkdata hfits (h.package package)

/-- Making the directory of a package changes nothing that is written. -/
theorem Written.putDirectory (h : Written t root place manifest header parts) {package : QualName}
    (hu : t.Puts (packagePlace place package) .directory u) :
    Written u root place manifest header parts where
  root := hu.leads (.inl rfl) h.root
  directory := by rw [hu.other (by simp [packagePlace, linkdataPlace]), h.directory]
  linkdata := by rw [hu.other (by simp [packagePlace]), h.linkdata]
  manifest := by rw [hu.other (by simp [packagePlace, linkdataPlace]), h.manifest]
  header := by
    rw [hu.other (by simp [packagePlace, Ne.symm (packageDirName_ne_module _)]), h.header]
  package := by
    intro other contents
    by_cases hsame : packagePlace place other = packagePlace place package
    · rw [hsame, hu.self]
      simp
    · rw [hu.other hsame]
      exact h.package other contents
  packages := by
    intro x hx
    by_cases hsame : packagePlace place x.1.1 = packagePlace place package
    · rw [hsame, hu.self]
    · rw [hu.other hsame]
      exact h.packages x hx
  part := by
    intro x
    rw [hu.other (by simp [partPlace, packagePlace]), h.part]

/-- The file of a part with a new number adds this part to what is written. -/
theorem Written.putPart (h : Written t root place manifest header parts) {x : QualName × Nat}
    {p : Payload} (hdir : t.get? (packagePlace place x.1) = some .directory)
    (hnew : parts.lookup x = none) (hu : t.Puts (partPlace place x) (.file p.write) u) :
    Written u root place manifest header (parts ++ [(x, p)]) where
  root := by
    have hfree : t.get? (partPlace place x) = none := by
      rw [h.part, hnew]
      rfl
    exact hu.leads (.inr (by simp [hfree])) h.root
  directory := by rw [hu.other (by simp [partPlace, packagePlace, linkdataPlace]), h.directory]
  linkdata := by rw [hu.other (by simp [partPlace, packagePlace]), h.linkdata]
  manifest := by rw [hu.other (by simp [partPlace, packagePlace, linkdataPlace]), h.manifest]
  header := by rw [hu.other (by simp [partPlace, packagePlace]), h.header]
  package := by
    intro package contents
    rw [hu.other (by simp [partPlace, packagePlace])]
    exact h.package package contents
  packages := by
    intro y hy
    rw [hu.other (by simp [partPlace, packagePlace])]
    rcases List.mem_append.1 hy with hy | hy
    · exact h.packages y hy
    · rw [List.mem_singleton.1 hy, hdir]
  part := by
    intro y
    rw [List.lookup_append]
    by_cases hsame : y = x
    · rw [hsame, hu.self, hnew, Option.none_or, List.lookup_cons_self]
      rfl
    · have hkey : (y == x) = false := beq_eq_false_iff_ne.2 hsame
      rw [hu.other (partPlace_inj.not.2 hsame), h.part, List.lookup_cons, hkey, List.lookup_nil,
        Option.or_none]

theorem Written.writePart (h : Written t root place manifest header parts) {n : Nat} {p : Payload}
    (hp : p.Storable) (hfits : (partPath root p.packageName n).Fits)
    (hnew : parts.lookup (p.packageName, n) = none) :
    ∃ u, (writePart root ((p.packageName, n), p)).Makes t () u ∧
      Written u root place manifest header (parts ++ [((p.packageName, n), p)]) := by
  have hpackage := isName_packageDirName hp.isValidPackage
  have hnumber := isName_toString n
  have htext : (packagePath root p.packageName).text ≠ "" :=
    Path.text_join_ne h.leads_linkdata.nonempty hpackage
  have hfront := hfits.front htext hnumber
  obtain ⟨v, hmake, hdir⟩ := h.makeDir hp.isValidPackage hfront
  have hv := h.putDirectory hdir
  have hleads : v.Leads (packagePath root p.packageName) (packagePlace place p.packageName) :=
    hv.leads_linkdata.join hpackage hv.linkdata (hfront.last h.leads_linkdata.nonempty hpackage)
  have hfree : v.get? (partPlace place (p.packageName, n)) = none := by
    rw [hv.part, hnew]
    rfl
  obtain ⟨u, hwrite, hfile⟩ := hleads.write hnumber hdir.self hfits
    (show v.get? (partPlace place (p.packageName, n)) ≠ _ by simp [hfree])
    ("failed to write package `" ++ p.packageName.text ++ "`") p.write
  refine ⟨u, ?_, hv.putPart hdir.self hnew hfile⟩
  simp only [DirectoryLibrary.writePart, hp.encode?]
  exact hmake.bind hwrite

/-- Parts are written one after the other, each under a number that is new. -/
theorem Written.writeParts {rest : List ((QualName × Nat) × Payload)}
    (h : Written t root place manifest header parts) (hkeys : ((parts ++ rest).map (·.1)).Nodup)
    (hrest : ∀ x ∈ rest, x.1.1 = x.2.packageName ∧ x.2.Storable ∧ (partPath root x.1.1 x.1.2).Fits) :
    ∃ u, (rest.forM (DirectoryLibrary.writePart root)).Makes t () u ∧
      Written u root place manifest header (parts ++ rest) := by
  induction rest generalizing t parts with
  | nil => exact ⟨t, makes_pure (), by rwa [List.append_nil]⟩
  | cons x rest ih =>
    obtain ⟨⟨package, n⟩, p⟩ := x
    obtain ⟨⟨hpackage, hp, hfits⟩, hothers⟩ := List.forall_mem_cons.1 hrest
    obtain rfl : package = p.packageName := hpackage
    have hnew : parts.lookup (p.packageName, n) = none := by
      rw [List.map_append, List.nodup_append] at hkeys
      rw [List.lookup_eq_none_iff]
      intro e he
      have hne := hkeys.2.2 e.1 (List.mem_map_of_mem he) (p.packageName, n) (by simp)
      simpa using hne.symm
    obtain ⟨u, hone, hu⟩ := h.writePart hp hfits hnew
    rw [List.append_cons] at hkeys ⊢
    obtain ⟨v, hall, hv⟩ := ih hu hkeys hothers
    exact ⟨v, hone.bind hall, hv⟩

/-- The path leads to a directory with nothing in it. -/
structure LeadsToEmpty (t : Tree) (root : Path) (place : Place) : Prop where
  leads : t.place root = .ok place
  directory : t.get? place = some .directory
  empty : ∀ name rest, t.get? (place ++ name :: rest) = none

theorem text_linkdataPath (root : Path) : (linkdataPath root).text ≠ "" := by
  by_cases hroot : root.text = ""
  · simp [linkdataPath, Path.join, hroot]
  · exact Path.text_join_ne hroot isName_linkdata

/-- The manifest and the header are written before all parts. -/
theorem LeadsToEmpty.start (h : LeadsToEmpty t root place) (hmanifest : (manifestPath root).Fits)
    (hheader : (headerPath root).Fits) (context context' : String) :
    ∃ u v w, (Edit.makeDir (linkdataPath root)).Makes t () u ∧
      (Edit.write context (manifestPath root) manifest).Makes u () v ∧
      (Edit.write context' (headerPath root) header).Makes v () w ∧
      Written w root place manifest header [] := by
  have hroot := Tree.leads_of_place h.leads
  have hlinkdata := hheader.front (text_linkdataPath root) isName_module
  obtain ⟨u, hmake, hu⟩ := hroot.makeDir isName_linkdata h.directory hlinkdata
    fun _ => by simp [h.empty]
  have hroot_u := hu.leads (.inl rfl) hroot
  have hplace_u : u.get? place = some .directory := by rw [hu.other (by simp), h.directory]
  have hmanifest_u : u.get? (place ++ ["manifest"]) = none := by rw [hu.other (by simp), h.empty]
  obtain ⟨v, hwrite, hv⟩ := hroot_u.write isName_manifest hplace_u hmanifest (by simp [hmanifest_u])
    context manifest
  have hroot_v := hv.leads (.inr (by simp [hmanifest_u])) hroot_u
  have hplace_v : v.get? place = some .directory := by rw [hv.other (by simp), hplace_u]
  have hlinkdata_v : v.get? (place ++ ["linkdata"]) = some .directory := by
    rw [hv.other (by simp), hu.self]
  have hheader_v : v.get? (place ++ ["linkdata"] ++ ["module"]) = none := by
    rw [hv.other (by simp), hu.other (by simp), List.append_assoc]
    exact h.empty _ _
  have hleads_v := hroot_v.join isName_linkdata hplace_v (by decide)
  obtain ⟨w, hwrite', hw⟩ := hleads_v.write isName_module hlinkdata_v hheader (by rw [hheader_v]; simp)
    context' header
  have hrest {r : Place} (hr : r ≠ ["module"]) (hrest : r ≠ []) :
      w.get? (linkdataPlace place ++ r) = none := by
    rw [hw.other (by simpa [linkdataPlace] using hr), hv.other (by simp [linkdataPlace]),
      hu.other (by simpa [linkdataPlace] using hrest), linkdataPlace, List.append_assoc]
    exact h.empty _ _
  refine ⟨u, v, w, hmake, hwrite, hwrite', ?_⟩
  exact
    { root := hw.leads (.inr (by rw [hheader_v]; simp)) hroot_v
      directory := by rw [hw.other (by simp), hplace_v]
      linkdata := by rw [linkdataPlace, hw.other (by simp), hlinkdata_v]
      manifest := by rw [hw.other (by simp), hv.self]
      header := hw.self
      package := by
        intro package contents
        rw [packagePlace, hrest (by simp [packageDirName_ne_module]) (by simp)]
        simp
      packages := by simp
      part := by
        intro x
        rw [partPlace, packagePlace, List.append_assoc, hrest (by simp) (by simp)]
        rfl }

def paths (root : Path) (payloads : List Payload) : List Path :=
  manifestPath root :: headerPath root ::
    (Payload.numbered payloads).map fun x => partPath root x.1.1 x.1.2

section

variable {payloads : List Payload}

theorem headerPath_mem_paths : headerPath root ∈ paths root payloads :=
  List.mem_cons_of_mem _ List.mem_cons_self

theorem partPath_mem_paths {x : QualName × Nat} {p : Payload} (h : (x, p) ∈ Payload.numbered payloads) :
    partPath root x.1 x.2 ∈ paths root payloads :=
  List.mem_cons_of_mem _ (List.mem_cons_of_mem _ (List.mem_map.2 ⟨(x, p), h, rfl⟩))

/-- Writing a library into an empty directory succeeds, if the file system can hold its files. -/
theorem LeadsToEmpty.create (h : LeadsToEmpty t root place) {m : Manifest} {header : Header}
    (hheader : header.Storable) (hpayloads : ∀ p ∈ payloads, p.Storable)
    (hfits : ∀ p ∈ paths root payloads, p.Fits) :
    ∃ u, (create root m header payloads).Makes t () u ∧
      Written u root place (Text.bytesOfText m.render) header.file (Payload.numbered payloads) := by
  have hmanifestFits := hfits _ List.mem_cons_self
  have hheaderFits := hfits _ headerPath_mem_paths
  obtain ⟨u, v, w, hmake, hmanifest, hwrite, hw⟩ := h.start hmanifestFits hheaderFits
    ("failed to write manifest `" ++ (manifestPath root).text ++ "`")
    ("failed to write module header in " ++ root.text)
  obtain ⟨x, hparts, hx⟩ := hw.writeParts (Payload.nodup_keys_numbered payloads) fun part hpart => by
    obtain ⟨hpackage, hmem⟩ := Payload.packageName_of_mem_numbered hpart
    exact ⟨hpackage, hpayloads _ hmem, hfits _ (partPath_mem_paths hpart)⟩
  refine ⟨x, ?_, hx⟩
  refine hmake.bind (Makes.bind (Makes.adapt hmanifest) ?_)
  simp only [(Header.encode?_eq_some hheader.encodes).1]
  exact hwrite.bind hparts

theorem openDir_of_readManifest {m : Manifest} (h : readManifest t (manifestPath root) = .ok m) :
    openDir t root = .ok ⟨root, (m.uniqueName.or root.fileName?).getD root.text, m⟩ := by
  rw [openDir, h]
  rfl

/-- The directory opens as a library with the manifest that its text states. -/
theorem Written.openDir {m : Manifest}
    (h : Written t root place (Text.bytesOfText m.render) header parts)
    (hfits : (manifestPath root).Fits) :
    ∃ l, openDir t root = .ok l ∧ l.root = root ∧ l.manifest = Manifest.parse m.render := by
  have hread : t.read (manifestPath root) = .ok (Text.bytesOfText m.render) :=
    (h.root.join isName_manifest h.directory (by decide)).read hfits h.manifest
  have htext : t.readText (manifestPath root) = .ok m.render := by
    rw [Tree.readText, hread]
    simp only [bind, Except.bind, Text.textOfBytes?_bytesOfText]
  have hmanifest : readManifest t (manifestPath root) = .ok (Manifest.parse m.render) := by
    rw [readManifest, htext]
    rfl
  exact ⟨_, openDir_of_readManifest hmanifest, rfl, rfl⟩

/-- A part that was not written cannot be read. -/
theorem Written.readPart_missing (h : Written t root place manifest header parts) {x : QualName × Nat}
    (hx : parts.lookup x = none) : ∃ fault, readPart t root x.1 x.2 = .error fault := by
  unfold readPart
  cases hpackage : x.1.isValidPackage with
  | false => exact ⟨_, rfl⟩
  | true =>
    apply Tree.read_missing
    intro q hplace
    have hname := isName_packageDirName hpackage
    have hlinkdata := h.leads_linkdata
    obtain ⟨r, hr, rfl⟩ := (Tree.leads_of_place hplace).of_join
      (Path.text_join_ne hlinkdata.nonempty hname) (isName_toString x.2)
    obtain ⟨d, hd, rfl⟩ := hr.of_join hlinkdata.nonempty hname
    obtain rfl := hd.unique hlinkdata
    change t.get? (partPlace place x) = none
    rw [h.part, hx]
    rfl

theorem Written.readPart (h : Written t root place manifest header parts) {x : QualName × Nat}
    {p : Payload} (hx : parts.lookup x = some p) (hpackage : x.1.isValidPackage = true)
    (hfits : (partPath root x.1 x.2).Fits) :
    readPart t root x.1 x.2 = .ok p.write := by
  have hname := isName_packageDirName hpackage
  have hnumber := isName_toString x.2
  have hlinkdata := h.leads_linkdata
  have htext : (packagePath root x.1).text ≠ "" := Path.text_join_ne hlinkdata.nonempty hname
  have hfront : (packagePath root x.1).Fits := hfits.front htext hnumber
  have hleads := (hlinkdata.join hname h.linkdata (hfront.last hlinkdata.nonempty hname)).join hnumber
    (h.packages _ (mem_of_lookup hx)) (hfits.last htext hnumber)
  rw [DirectoryLibrary.readPart, if_pos hpackage]
  refine hleads.read hfits ?_
  change t.get? (partPlace place x) = _
  rw [h.part, hx]
  rfl

/-- A library that is written gives its header and its parts. -/
theorem Written.stores {h : Header}
    (hw : Written t root place manifest h.file (Payload.numbered payloads))
    (hpayloads : ∀ p ∈ payloads, p.Storable) (hfits : ∀ p ∈ paths root payloads, p.Fits)
    {l : DirectoryLibrary} (hl : l.root = root) : (l.toLibrary t).Stores h payloads := by
  subst hl
  refine ⟨?_, ?_, fun x hx => hw.readPart_missing hx⟩
  · have hleads := hw.leads_linkdata.join isName_module hw.linkdata (by decide)
    exact hleads.read (hfits _ headerPath_mem_paths) hw.header
  · intro x p hlookup
    have hx : (x, p) ∈ Payload.numbered payloads := mem_of_lookup hlookup
    obtain ⟨hpackage, hp⟩ := Payload.packageName_of_mem_numbered hx
    have hvalid : x.1.isValidPackage = true := hpackage ▸ (hpayloads p hp).isValidPackage
    exact hw.readPart hlookup hvalid (hfits _ (partPath_mem_paths hx))

end

end DirectoryLibrary

end SymbolAtlas
