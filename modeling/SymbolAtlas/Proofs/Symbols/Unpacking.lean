import SymbolAtlas.Proofs.Library.Directory
import SymbolAtlas.Proofs.Symbols.Session

namespace SymbolAtlas

open Query Files

theorem Library.getElem?_storedOf {l : Library} {header : Header} {reports : Bool} {i : Nat}
    {f : StoredFragment} (h : (l.storedOf header reports)[i]? = some f) : f.library = l ∧
      (numberParts [] (header.packages.map QualName.ofText))[i]? = some (f.package, f.part) := by
  rw [storedOf, List.getElem?_map, Option.map_eq_some_iff] at h
  obtain ⟨x, hx, rfl⟩ := h
  exact ⟨rfl, hx⟩

theorem Library.map_package_storedOf (l : Library) (header : Header) (reports : Bool) :
    (l.storedOf header reports).map (·.package) = header.packages.map QualName.ofText := by
  rw [storedOf, List.map_map]
  exact map_fst_numberParts [] _

theorem Manifest.Consistent.syntheticOf {l : Library} (h : l.manifest.Consistent)
    (stored : List StoredFragment) : ∃ synthetic, l.syntheticOf stored = .ok synthetic ∧
      ∀ f ∈ synthetic, f.stored? = none := by
  have hok : ∃ synthetic, l.syntheticOf stored = .ok synthetic := by
    unfold Library.syntheticOf
    cases hinterop : l.manifest.isInterop with
    | false => exact ⟨_, rfl⟩
    | true =>
      cases hpackage : l.manifest.package with
      | none => exact absurd hpackage (h hinterop)
      | some package => exact ⟨_, rfl⟩
  obtain ⟨synthetic, hsynthetic⟩ := hok
  exact ⟨synthetic, hsynthetic, Library.stored?_of_syntheticOf hsynthetic⟩

namespace Library.Stores

variable {l : Library} {header : Header} {payloads : List Payload} {c : Services}
  {f : StoredFragment}

/-- The library can be loaded, and its stored fragments are those that the header lists. -/
theorem servicesOf (h : l.Stores header payloads) (hheader : header.Storable)
    (hmanifest : l.manifest.Consistent) (options : LoadOptions) :
    ∃ c, l.servicesOf options = .ok c ∧
      c.provider.storedFragments = l.storedOf header options.reports := by
  obtain ⟨synthetic, hsynthetic, hnone⟩ :=
    hmanifest.syntheticOf (l.storedOf header options.reports)
  have hparse : Header.parse l.name header.file = .ok header := by
    rw [Header.parse, hheader.decode_file]
    rfl
  refine ⟨{ identity := 0, moduleName := .special header.moduleName,
            policy := options.settings.policy, decoder := options.decoder, counters := 0,
            provider := ⟨0, [(l.storedOf header options.reports).map .stored, synthetic]⟩ },
    ?_, Provider.storedFragments_layers (by simp [Provider.fragments]) hnone⟩
  rw [Library.servicesOf, h.header]
  change (Header.parse l.name header.file >>= _) = _
  rw [hparse]
  change (l.syntheticOf (l.storedOf header options.reports) >>= _) = _
  rw [hsynthetic]
  rfl

/-- The bytes of a part are those of its payload. -/
theorem part_decodes (h : l.Stores header payloads) (hpayloads : ∀ p ∈ payloads, p.Storable)
    {part : QualName × Nat} {p : Payload} (hp : (Payload.numbered payloads).lookup part = some p) :
    l.payload part.1 part.2 = .ok p.write ∧ Decoder.binary part.1 p.write = .ok p ∧
      p.version.isCompatibleWith .current = true := by
  obtain ⟨hpackage, hmem⟩ := Payload.packageName_of_mem_numbered (mem_of_lookup hp)
  have hstorable := hpayloads p hmem
  have hdecode : Decoder.binary part.1 p.write = .ok p := by
    rw [Decoder.binary_eq_ok, show part.1 = p.packageName from hpackage]
    exact hstorable.decode_write
  exact ⟨h.part part p hp, hdecode, hstorable.version⟩

theorem reading (h : l.Stores header payloads) (hpayloads : ∀ p ∈ payloads, p.Storable)
    (hf : f.library = l) (hc : c.decoder = .binary) {p : Payload}
    (hp : (Payload.numbered payloads).lookup (f.package, f.part) = some p) : f.reading c = .ok p := by
  obtain ⟨hbytes, hdecode, hversion⟩ := h.part_decodes hpayloads hp
  rw [← hf] at hbytes
  rw [← hc] at hdecode
  rw [StoredFragment.reading_of_ok hbytes hdecode]
  simp [hversion]

/-- A fragment reads the payload that is the same part as its name in the header. -/
theorem reading_of_samePart (h : l.Stores header payloads) (hpayloads : ∀ p ∈ payloads, p.Storable)
    (hf : f.library = l) (hc : c.decoder = .binary) {i k : Nat} {p : Payload}
    (hi : (numberParts [] (header.packages.map QualName.ofText))[i]? = some (f.package, f.part))
    (hsame : SamePart (header.packages.map QualName.ofText) (payloads.map Payload.packageName) i k)
    (hp : payloads[k]? = some p) : f.reading c = .ok p := by
  obtain ⟨x, hx, hk⟩ := samePart_iff.1 hsame
  obtain rfl := Option.some.inj (hi.symm.trans hx)
  exact h.reading hpayloads hf hc (Payload.lookup_numbered hk hp)

theorem reading_missing (h : l.Stores header payloads) (hf : f.library = l)
    (hp : (Payload.numbered payloads).lookup (f.package, f.part) = none) :
    ∃ fault, f.reading c = .error
      (.libraryRead l.name ("metadata of package `" ++ f.package.text ++ "`") fault) := by
  obtain ⟨fault, hfault⟩ := h.missing _ hp
  refine ⟨fault, ?_⟩
  rw [StoredFragment.reading, hf, hfault]
  rfl

end Library.Stores

/-- The stored fragments of these services read the payloads that the header lists, in every store
that `t` can come to. -/
structure Services.Unpacks (c : Services) (library : String) (header : Header)
    (payloads : List Payload) (t : Store) : Prop where
  /-- There is a fragment for each name in the header, in its order. -/
  packages : c.provider.storedFragments.map (·.package) = header.packages.map QualName.ofText
  /-- A fragment reads the payload of its package that has as many before it as the fragment has. -/
  reads : ∀ i f, c.provider.storedFragments[i]? = some f →
    ((header.packages.map QualName.ofText).take i).count f.package <
      (payloads.map Payload.packageName).count f.package →
    ∃ k p, SamePart (header.packages.map QualName.ofText) (payloads.map Payload.packageName) i k ∧
      payloads[k]? = some p ∧ ∀ u, t.Steps u → (f.scope.runOn u).1 = .ok p
  /-- A fragment fails when there are not more payloads of its package than fragments before it. -/
  fails : ∀ i f, c.provider.storedFragments[i]? = some f →
    (payloads.map Payload.packageName).count f.package ≤
      ((header.packages.map QualName.ofText).take i).count f.package →
    ∃ fault, ∀ u, t.Steps u → (f.scope.runOn u).1 =
      .error (.libraryRead library ("metadata of package `" ++ f.package.text ++ "`") fault)
  /-- No payload is read by two fragments. -/
  once : ∀ i j k,
    SamePart (header.packages.map QualName.ofText) (payloads.map Payload.packageName) i k →
    SamePart (header.packages.map QualName.ofText) (payloads.map Payload.packageName) j k → i = j
  /-- When the header lists the packages of the payloads in their order, each fragment reads the
  payload in its place. -/
  inOrder : header.packages = payloads.map (·.package) →
    c.provider.storedFragments.length = payloads.length ∧
      ∀ (i : Nat) (f : StoredFragment) (p : Payload), c.provider.storedFragments[i]? = some f →
        payloads[i]? = some p → ∀ u, t.Steps u → (f.scope.runOn u).1 = .ok p

namespace Library

/-- What is so of a library that stores a header and payloads: in every session it can be loaded, and
what is loaded reads the payloads. -/
def Opens (l : Library) (header : Header) (payloads : List Payload) : Prop :=
  ∀ (S : Session) (options : LoadOptions), S.Reachable → options.decoder = .binary →
    ∃ m c t, (Module.load l options).runOn S.store = (.ok m, t) ∧ m.services? t = some c ∧
      c.Unpacks l.name header payloads t

variable {l : Library} {header : Header} {payloads : List Payload} {c : Services} {t : Store}

theorem Stores.unpacks (h : l.Stores header payloads) (hpayloads : ∀ p ∈ payloads, p.Storable)
    {reports : Bool}
    (hstored : c.provider.storedFragments.map StoredFragment.anonymous = l.storedOf header reports)
    (hdecoder : c.decoder = .binary) (ht : t.Sound) (hc : t.Knows c) :
    c.Unpacks l.name header payloads t := by
  let listed := header.packages.map QualName.ofText
  have hpart {i : Nat} {f : StoredFragment} (hi : c.provider.storedFragments[i]? = some f) :
      f.library = l ∧ (numberParts [] listed)[i]? = some (f.package, f.part) := by
    have hanonymous : (l.storedOf header reports)[i]? = some f.anonymous := by
      rw [← hstored, List.getElem?_map, hi]
      rfl
    exact getElem?_storedOf (f := f.anonymous) hanonymous
  have hscope {i : Nat} {f : StoredFragment} (hi : c.provider.storedFragments[i]? = some f)
      {u : Store} (hu : t.Steps u) : (f.scope.runOn u).1 = f.reading c :=
    StoredFragment.scope_eq_reading (hu.sound ht) ⟨hu.knows ht hc, List.mem_of_getElem? hi⟩
  have hpackages : c.provider.storedFragments.map (·.package) = listed := by
    have hmap := congrArg (List.map (·.package)) hstored
    rw [List.map_map] at hmap
    exact hmap.trans (l.map_package_storedOf header reports)
  refine
    { packages := hpackages
      reads := ?_
      fails := ?_
      once := fun i j k hi hj => hi.unique hj
      inOrder := ?_ }
  · intro i f hi hfewer
    obtain ⟨hlibrary, hnumber⟩ := hpart hi
    obtain ⟨k, hsame⟩ := exists_samePart (getElem?_numberParts_eq_some.1 hnumber).1 hfewer
    have hk : k < payloads.length := by simpa using hsame.lt_length
    have hp : payloads[k]? = some payloads[k] := List.getElem?_eq_getElem hk
    have hreads := h.reading_of_samePart hpayloads hlibrary hdecoder hnumber hsame hp
    exact ⟨k, _, hsame, hp, fun u hu => (hscope hi hu).trans hreads⟩
  · intro i f hi hfewer
    obtain ⟨hlibrary, hnumber⟩ := hpart hi
    have hcount := (getElem?_numberParts_eq_some.1 hnumber).2
    have hnone : (Payload.numbered payloads).lookup (f.package, f.part) = none :=
      Payload.lookup_numbered_eq_none.2 (hcount ▸ hfewer)
    obtain ⟨fault, hfault⟩ := h.reading_missing hlibrary hnone
    exact ⟨fault, fun u hu => (hscope hi hu).trans hfault⟩
  · intro horder
    have hlisted : listed = payloads.map Payload.packageName := by
      rw [show listed = header.packages.map QualName.ofText from rfl, horder, List.map_map]
      rfl
    constructor
    · simpa [hlisted] using congrArg List.length hpackages
    · intro i f p hi hp u hu
      obtain ⟨hlibrary, hnumber⟩ := hpart hi
      have hsame : SamePart listed (payloads.map Payload.packageName) i i := by
        rw [← hlisted]
        exact samePart_self (getElem?_numberParts_eq_some.1 hnumber).1
      have hreads := h.reading_of_samePart hpayloads hlibrary hdecoder hnumber hsame hp
      exact (hscope hi hu).trans hreads

/-- A library that stores a header and payloads opens as them. -/
theorem Stores.opens (h : l.Stores header payloads) (hheader : header.Storable)
    (hpayloads : ∀ p ∈ payloads, p.Storable) (hmanifest : l.manifest.Consistent) :
    l.Opens header payloads := by
  intro S options hS hdecoder
  obtain ⟨c₀, hservices, hstored⟩ := h.servicesOf hheader hmanifest options
  have hs := hS.sound.store
  rcases Module.load_cases hs l options with ⟨e, t, herror, -, -⟩ | ⟨m, c, t, hc, hrun, hloads⟩
  · cases hservices.symm.trans herror
  · have heq : c₀ = c.anonymous := Except.ok.inj (hservices.symm.trans hc)
    have hanonymous : c.provider.storedFragments.map StoredFragment.anonymous =
        l.storedOf header options.reports := by
      rw [← hstored, heq]
      exact c.provider.storedFragments_anonymous.symm
    have hbinary : c.decoder = .binary := (Module.decoder_of_servicesOf hc).trans hdecoder
    exact ⟨m, c, t, hrun, hloads.services?_self, h.unpacks hpayloads hanonymous hbinary
      (hloads.sound hs) (Module.knows_of_services? hloads.services?_self)⟩

end Library

/-- **What is written is what is read.** Take a header and payloads that can be stored. Written into an
empty directory whose file system can hold the files, they are read back as a library with the
manifest that was written, and it opens as this header and these payloads. Built into a library in
memory, they open as the header of the builder and the payloads, and under any other header as that
header and the payloads. -/
theorem Library.written_opens {header : Header} {payloads : List Payload} (manifest : Manifest)
    (hheader : header.Storable) (hpayloads : ∀ p ∈ payloads, p.Storable) :
    (∀ t root place, DirectoryLibrary.LeadsToEmpty t root place →
      (∀ p ∈ DirectoryLibrary.paths root payloads, p.Fits) →
      (Manifest.parse manifest.render).Consistent →
      ∃ u l, (DirectoryLibrary.create root manifest header payloads).run t = (.ok (), u) ∧
        DirectoryLibrary.openDir u root = .ok l ∧ l.manifest = Manifest.parse manifest.render ∧
        (l.toLibrary u).Opens header payloads) ∧
    ∀ name declared, manifest.Consistent →
      (Header.mk header.moduleName (payloads.map (·.package) ++ declared)).Storable →
      ∃ l, MemoryLibrary.ofPayloads? name header.moduleName manifest payloads declared = some l ∧
        l.toLibrary.Opens ⟨header.moduleName, payloads.map (·.package) ++ declared⟩ payloads ∧
        ({ l with header := header.file } : MemoryLibrary).toLibrary.Opens header payloads := by
  constructor
  · intro t root place hempty hfits hconsistent
    obtain ⟨u, hcreate, hwritten⟩ := hempty.create (m := manifest) hheader hpayloads hfits
    obtain ⟨l, hopen, hroot, hmanifest⟩ := hwritten.openDir (hfits _ List.mem_cons_self)
    have hstores := hwritten.stores hpayloads hfits hroot
    rw [← hmanifest] at hconsistent
    exact ⟨u, l, hcreate, hopen, hmanifest, hstores.opens hheader hpayloads hconsistent⟩
  · intro name declared hconsistent hdeclared
    obtain ⟨l, hl, hmanifest, hstores, hothers⟩ :=
      MemoryLibrary.ofPayloads?_stores name manifest hpayloads hdeclared
    rw [← hmanifest] at hconsistent
    exact ⟨l, hl, hstores.opens hdeclared hpayloads hconsistent,
      (hothers header).opens hheader hpayloads hconsistent⟩

/-- Two parts of one package with a part of another one between them. -/
def Payload.interleaved : List Payload :=
  [⟨"app", .current, [⟨"First", .plain, 0, [], []⟩], [], []⟩,
    ⟨"lib.core", .current, [⟨"Only", .interface, 1, [], []⟩], ["f"], []⟩,
    ⟨"app", .current, [⟨"Second", .object, 0, [], []⟩], [], ["p"]⟩]

/-- A header in another order, with a name more than there are parts. -/
def Header.reordered : Header :=
  ⟨"demo", ["lib.core", "app", "app", "app"]⟩

/-- The parts are written into a directory and into memory, and open under the header. -/
theorem Library.written_opens_interleaved :
    (∃ u l, (DirectoryLibrary.create ⟨"/library"⟩ .empty .reordered Payload.interleaved).run
        (Tree.emptyAt ["library"]) = (.ok (), u) ∧
      DirectoryLibrary.openDir u ⟨"/library"⟩ = .ok l ∧
      (l.toLibrary u).Opens .reordered Payload.interleaved) ∧
    ∃ l, MemoryLibrary.ofPayloads? "memory" "demo" .empty Payload.interleaved [] = some l ∧
      ({ l with header := Header.reordered.file } : MemoryLibrary).toLibrary.Opens .reordered
        Payload.interleaved := by
  have hheader : Header.reordered.Storable := by decide +kernel
  have hpayloads : ∀ p ∈ Payload.interleaved, p.Storable := by decide +kernel
  have hempty : DirectoryLibrary.LeadsToEmpty (Tree.emptyAt ["library"]) ⟨"/library"⟩ ["library"] :=
    ⟨by decide +kernel, by decide +kernel, fun name rest => rfl⟩
  have hfits : ∀ p ∈ DirectoryLibrary.paths ⟨"/library"⟩ Payload.interleaved, p.Fits := by
    decide +kernel
  obtain ⟨hdirectory, hmemory⟩ := Library.written_opens .empty hheader hpayloads
  constructor
  · obtain ⟨u, l, hcreate, hopen, -, hopens⟩ :=
      hdirectory _ _ _ hempty hfits (by decide +kernel)
    exact ⟨u, l, hcreate, hopen, hopens⟩
  · obtain ⟨l, hl, -, hopens⟩ := hmemory "memory" [] (by decide +kernel) (by decide +kernel)
    exact ⟨l, hl, hopens⟩

end SymbolAtlas
