import SymbolAtlas.Proofs.Payload.Size

/-!
# Reading with an allowance

A file can claim lists of any length and arrays of any depth. Reading it is still short work: a reader
that pays for everything it begins to read, and gives up when it has nothing left, reads every file
with as large an allowance as the file has bytes. Each thing that is read takes a byte of its own, and
each list that is begun has taken one for its length, which pays for the item that fails.

* `decodeWithin`: decoding with an allowance;
* `Metered.Follows`: the metered reader reads what the reader reads;
* `decode_bounded`: an allowance of one for each byte is never used up, and bounds what is read.
-/

namespace SymbolAtlas.Payload

open Binary

/-- Reads on an allowance, and gives up when there is nothing left of it. -/
abbrev Metered := StateT Nat (OptionT Reader)

namespace Metered

variable {α β : Type}

def pay : Metered Unit := fun
  | 0 => failure
  | allowance + 1 => pure ((), allowance)

def items (read : Metered α) : Nat → Metered (List α)
  | 0 => pure []
  | count + 1 => do
    let item ← read
    let rest ← items read count
    return item :: rest

def list (read : Metered α) : Metered (List α) := do
  items read (← readNat)

def text : Metered String := do
  pay
  readText

/-- Gives up where arrays nest deeper than `depth`, too. -/
def constant : Nat → Metered (Constant String)
  | 0 => failure
  | depth + 1 => do
    pay
    match ← readKind 6 with
    | 0 => return .bool (← readBool)
    | 1 => return .int (← readInt)
    | 2 => return .double (← readDouble)
    | 3 => return .text (← readText)
    | 4 => do
      let owner ← readText
      let name ← readText
      return .entry owner name
    | _ => return .array (← list (constant depth))

def argument (depth : Nat) : Metered (String × Constant String) := do
  pay
  let name ← readText
  let value ← constant depth
  return (name, value)

def annotationRecord (depth : Nat) : Metered AnnotationRecord := do
  pay
  let className ← readText
  let arguments ← list (argument depth)
  return ⟨className, arguments⟩

def classRecord (depth : Nat) : Metered ClassRecord := do
  pay
  let name ← readText
  let kind ← readClassKind
  let typeParameters ← readU32
  let supertypes ← list text
  let annotations ← list (annotationRecord depth)
  return ⟨name, kind, typeParameters, supertypes, annotations⟩

def payload (depth : Nat) : Metered Payload := do
  let package ← readText
  let version ← readVersion
  let classes ← list (classRecord depth)
  let functions ← list text
  let properties ← list text
  return ⟨package, version, classes, functions, properties⟩

/-! ## Metered readers -/

/-- Whatever `read` gives, `m` gives, when the length of the bytes and the allowance are as `P` says;
afterwards they are as `Q` says. -/
def Follows (P Q : Nat → Nat → Prop) (m : Metered α) (read : Reader α) : Prop :=
  ∀ bytes allowance, P bytes.length allowance → match read bytes with
    | .error fault => m allowance bytes = .error fault
    | .ok (a, rest) => ∃ left, Q rest.length left ∧ m allowance bytes = .ok (some (a, left), rest)

/-- The bytes are fewer than `depth`, and the allowance has one for each of them and `more`. -/
def Funded (depth more length allowance : Nat) : Prop :=
  length < depth ∧ length + more ≤ allowance

theorem Funded.mono {depth depth' more more' length allowance : Nat}
    (h : Funded depth more length allowance) (hdepth : depth ≤ depth') (hmore : more' ≤ more) :
    Funded depth' more' length allowance :=
  ⟨Nat.lt_of_lt_of_le h.1 hdepth, by have := h.2; omega⟩

section
variable {P Q R : Nat → Nat → Prop} {m : Metered α} {read : Reader α} {f : α → Metered β}
  {next : α → Reader β} {depth more : Nat}

theorem run_bind (m : Metered α) (f : α → Metered β) (allowance : Nat) (bytes : Bytes) :
    (m >>= f) allowance bytes = match m allowance bytes with
      | .error fault => .error fault
      | .ok (none, rest) => .ok (none, rest)
      | .ok (some (a, left), rest) => f a left rest := by
  simp only [Bind.bind, StateT.bind, OptionT.bind, OptionT.mk, Except.bind]
  rcases m allowance bytes with fault | ⟨_ | ⟨a, left⟩, rest⟩ <;> rfl

theorem run_lift (read : Reader α) (allowance : Nat) (bytes : Bytes) :
    (liftM read : Metered α) allowance bytes =
      (read bytes).map fun p => (some (p.1, allowance), p.2) := by
  simp only [liftM, monadLift, MonadLift.monadLift, StateT.lift, OptionT.lift, OptionT.bind, OptionT.mk,
    Bind.bind, StateT.bind, Except.bind]
  rcases read bytes with fault | ⟨a, rest⟩ <;> rfl

theorem follows_pure (a : α) : Follows P P (pure a) (pure a) :=
  fun _ allowance h => ⟨allowance, h, rfl⟩

theorem Follows.bind (hm : Follows P Q m read) (hf : ∀ a, Follows Q R (f a) (next a)) :
    Follows P R (m >>= f) (read >>= next) := by
  intro bytes allowance h
  have hread := hm bytes allowance h
  have hbind : (read >>= next) bytes = (read bytes >>= fun p => next p.1 p.2) := rfl
  rw [hbind, run_bind]
  rcases hbytes : read bytes with fault | ⟨a, rest⟩
  · rw [hbytes] at hread
    dsimp only at hread
    rw [hread]
    rfl
  · rw [hbytes] at hread
    obtain ⟨left, hleft, hrun⟩ := hread
    rw [hrun]
    exact hf a rest left hleft

theorem Follows.returns {f : α → β} (hm : Follows P Q m read) :
    Follows P Q (m >>= fun a => pure (f a)) (read >>= fun a => pure (f a)) :=
  hm.bind fun a => follows_pure (f a)

theorem Follows.weaken {P' Q' : Nat → Nat → Prop} (hm : Follows P Q m read)
    (hP : ∀ length allowance, P' length allowance → P length allowance)
    (hQ : ∀ length allowance, Q length allowance → Q' length allowance) : Follows P' Q' m read := by
  intro bytes allowance h
  have hread := hm bytes allowance (hP _ _ h)
  rcases hbytes : read bytes with fault | ⟨a, rest⟩
  · rwa [hbytes] at hread
  · rw [hbytes] at hread
    obtain ⟨left, hleft, hrun⟩ := hread
    exact ⟨left, hQ _ _ hleft, hrun⟩

theorem follows_lift (h : ∀ bytes a rest allowance, read bytes = .ok (a, rest) →
    P bytes.length allowance → Q rest.length allowance) : Follows P Q (liftM read) read := by
  intro bytes allowance hP
  rw [run_lift]
  rcases hbytes : read bytes with fault | ⟨a, rest⟩
  · rfl
  · exact ⟨allowance, h bytes a rest allowance hbytes hP, rfl⟩

/-- What is read in passing costs nothing. -/
theorem follows_local (hread : Local read) :
    Follows (Funded depth more) (Funded depth more) (liftM read) read := by
  refine follows_lift fun bytes a rest allowance hbytes h => ?_
  obtain ⟨front, rfl, -⟩ := hread _ _ _ hbytes
  have hlength : (front ++ rest).length = front.length + rest.length := List.length_append
  exact ⟨by have := h.1; omega, by have := h.2; omega⟩

/-- The bytes that are taken are paid for. -/
theorem follows_taking (hread : Local read) (hpos : ∀ front a, Takes read front a → 0 < front.length) :
    Follows (Funded depth more) (Funded (depth - 1) (more + 1)) (liftM read) read := by
  refine follows_lift fun bytes a rest allowance hbytes h => ?_
  obtain ⟨front, rfl, hfront⟩ := hread _ _ _ hbytes
  have hlength : (front ++ rest).length = front.length + rest.length := List.length_append
  have hfront := hpos front a hfront
  exact ⟨by have := h.1; omega, by have := h.2; omega⟩

theorem Follows.paid (hm : Follows (Funded depth more) Q m read) :
    Follows (Funded depth (more + 1)) Q (pay >>= fun _ => m) read := by
  intro bytes allowance h
  obtain ⟨allowance, rfl⟩ : ∃ n, allowance = n + 1 := ⟨allowance - 1, by have := h.2; omega⟩
  exact hm bytes allowance ⟨h.1, by have := h.2; omega⟩

/-! ## Text and lists -/

/-- An item that is paid for gives back what it costs. -/
theorem items_follow (hm : Follows (Funded depth 1) (Funded depth 1) m read) (count : Nat) :
    Follows (Funded depth 1) (Funded depth 1) (items m count) (readItems read count) := by
  induction count with
  | zero => exact follows_pure []
  | succ count ih => exact hm.bind fun _ => ih.returns

theorem list_follows (hm : Follows (Funded depth 1) (Funded depth 1) m read) :
    Follows (Funded depth 0) (Funded depth 1) (list m) (readList read) := by
  have hcount : Follows (Funded depth 0) (Funded (depth - 1) 1) (liftM readNat) readNat :=
    follows_taking local_readNat fun _ n h =>
      Nat.lt_of_lt_of_le (writeNat_length_pos n) h.writeNat_length_le
  have hcount := hcount.weaken (fun _ _ => id) fun _ _ h => h.mono (Nat.sub_le depth 1) (Nat.le_refl 1)
  exact hcount.bind (items_follow hm)

/-- What is left over of a list can be left. -/
theorem list_passes (hm : Follows (Funded depth 1) (Funded depth 1) m read) :
    Follows (Funded depth 0) (Funded depth 0) (list m) (readList read) :=
  (list_follows hm).weaken (fun _ _ => id) fun _ _ h => h.mono (Nat.le_refl _) (Nat.zero_le 1)

theorem text_follows : Follows (Funded depth 1) (Funded depth 1) text readText := by
  have htext : Follows (Funded depth 0) (Funded (depth - 1) 1) (liftM readText) readText :=
    follows_taking local_readText fun _ _ => length_pos_of_takes_text
  exact (htext.weaken (fun _ _ => id) fun _ _ h => h.mono (Nat.sub_le depth 1) (Nat.le_refl 1)).paid

end

/-! ## Payloads -/

section
variable {depth : Nat}

/-- Neither the metered reader nor the one it follows comes to the depth that it allows. -/
theorem constant_follows {bound depth' : Nat} (hdepth : bound ≤ depth) (hdepth' : bound ≤ depth') :
    Follows (Funded bound 1) (Funded bound 1) (constant depth) (readConstantTo depth') := by
  induction depth generalizing bound depth' with
  | zero => exact fun bytes allowance h => absurd (Nat.lt_of_lt_of_le h.1 hdepth) (Nat.not_lt_zero _)
  | succ depth ih =>
    cases depth' with
    | zero => exact fun bytes allowance h => absurd (Nat.lt_of_lt_of_le h.1 hdepth') (Nat.not_lt_zero _)
    | succ depth' =>
      have hkind : Follows (Funded bound 0) (Funded (bound - 1) 1) (liftM (readKind 6)) (readKind 6) :=
        follows_taking (local_readKind 6) fun _ _ => length_pos_of_takes_kind
      have hitem : Follows (Funded (bound - 1) 1) (Funded (bound - 1) 1) (constant depth)
          (readConstantTo depth') := ih (by omega) (by omega)
      have hleft : ∀ length allowance, Funded (bound - 1) 1 length allowance →
          Funded bound 1 length allowance := fun _ _ h => h.mono (Nat.sub_le bound 1) (Nat.le_refl 1)
      refine ((hkind.bind fun index => ?_).weaken (fun _ _ => id) hleft).paid
      rcases index with _ | _ | _ | _ | _ | index
      · exact (follows_local local_readBool).returns
      · exact (follows_local local_readInt).returns
      · exact (follows_local local_readDouble).returns
      · exact (follows_local local_readText).returns
      · exact (follows_local local_readText).bind fun _ => (follows_local local_readText).returns
      · exact ((list_follows hitem).weaken (fun _ _ h => h.mono (Nat.le_refl _) (Nat.zero_le 1))
          fun _ _ => id).returns

theorem argument_follows :
    Follows (Funded (depth + 1) 1) (Funded (depth + 1) 1) (argument depth) readArgument := by
  have hname : Follows (Funded (depth + 1) 0) (Funded depth 1) (liftM readText) readText :=
    follows_taking local_readText fun _ _ => length_pos_of_takes_text
  have hvalue : Follows (Funded depth 1) (Funded (depth + 1) 1) (constant depth) readConstant := by
    intro bytes allowance h
    have hconstant : Follows (Funded (bytes.length + 1) 1) (Funded (depth + 1) 1) (constant depth)
        (readConstantTo (bytes.length + 1)) :=
      (constant_follows h.1 (Nat.le_refl _)).weaken (fun _ _ => id)
        fun _ _ hleft => hleft.mono (Nat.le_succ_of_le h.1) (Nat.le_refl 1)
    exact hconstant bytes allowance ⟨Nat.lt_succ_self _, h.2⟩
  exact (hname.bind fun _ => hvalue.returns).paid

theorem annotationRecord_follows :
    Follows (Funded (depth + 1) 1) (Funded (depth + 1) 1) (annotationRecord depth)
      readAnnotationRecord := by
  have hname : Follows (Funded (depth + 1) 0) (Funded (depth + 1) 0) (liftM readText) readText :=
    follows_local local_readText
  exact (hname.bind fun _ => (list_follows argument_follows).returns).paid

theorem classRecord_follows :
    Follows (Funded (depth + 1) 1) (Funded (depth + 1) 1) (classRecord depth) readClass := by
  have hname : Follows (Funded (depth + 1) 0) (Funded (depth + 1) 0) (liftM readText) readText :=
    follows_local local_readText
  exact (hname.bind fun _ => (follows_local local_readClassKind).bind fun _ =>
    (follows_local local_readU32).bind fun _ => (list_passes text_follows).bind fun _ =>
      (list_follows annotationRecord_follows).returns).paid

theorem payload_follows :
    Follows (Funded (depth + 1) 0) (Funded (depth + 1) 0) (payload depth) read :=
  (follows_local local_readText).bind fun _ => (follows_local local_readVersion).bind fun _ =>
    (list_passes classRecord_follows).bind fun _ => (list_passes text_follows).bind fun _ =>
      (list_passes text_follows).returns

end

end Metered

/-- Decodes on an allowance: one for each class, supertype, annotation, argument, constant, function
and property that is begun. There is no answer when it is used up, or when arrays nest deeper. -/
def decodeWithin (allowance : Nat) (package : QualName) (bytes : Bytes) :
    Option (Except Fault Payload) :=
  match Metered.payload allowance allowance bytes with
  | .error fault => some (.error (.unreadable fault))
  | .ok (none, _) => none
  | .ok (some _, _ :: _) => some (.error (.unreadable .leftOver))
  | .ok (some (p, _), []) =>
    some (if p.package = package.text then .ok p else .error (.foreign p.package))

theorem decodeWithin_length (package : QualName) (bytes : Bytes) :
    decodeWithin bytes.length package bytes = some (decode package bytes) := by
  have hfollows := Metered.payload_follows bytes bytes.length ⟨Nat.lt_succ_self _, Nat.le_refl _⟩
  unfold decodeWithin decode Reader.all
  rcases hread : read bytes with fault | ⟨p, rest⟩
  · rw [hread] at hfollows
    dsimp only at hfollows
    rw [hfollows]
  · rw [hread] at hfollows
    obtain ⟨left, -, hrun⟩ := hfollows
    rw [hrun]
    cases rest <;> rfl

/-- **Decoding is bounded by its input.** Whatever lengths stand in a file, decoding it never uses up an
allowance of one for each byte, and what it gives holds no more than the file has bytes and nests arrays
at most half as deep. -/
theorem decode_bounded (package : QualName) (bytes : Bytes) :
    decodeWithin bytes.length package bytes = some (decode package bytes) ∧
      ∀ p, decode package bytes = .ok p →
        p.size ≤ bytes.length ∧ ∀ c ∈ p.constants, c.nesting ≤ bytes.length / 2 := by
  refine ⟨decodeWithin_length package bytes, fun p hp => ?_⟩
  obtain ⟨hsize, hnesting⟩ := size_le_of_takes (decode_eq_ok.1 hp).1
  exact ⟨hsize, fun c hc => by have := hnesting c hc; omega⟩

/-- A class with constants of all kinds, which is decoded. -/
theorem decode_bounded_limits :
    decode (QualName.ofText limits.package) limits.write = .ok limits ∧
      limits.size ≤ limits.write.length ∧
      ∀ c ∈ limits.constants, c.nesting ≤ limits.write.length / 2 := by
  have htakes : Takes read limits.write limits := takes_write (by decide +kernel)
  have hdecode : decode (QualName.ofText limits.package) limits.write = .ok limits :=
    decode_eq_ok.2 ⟨htakes, by decide⟩
  exact ⟨hdecode, (decode_bounded (QualName.ofText limits.package) limits.write).2 limits hdecode⟩

/-- A root package that claims 2^64 - 1 classes, and holds the beginning of one. -/
example : decodeWithin 15 QualName.root [0, 1, 4, 0, 253, 255, 255, 255, 255, 255, 255, 255, 255, 1, 65] =
    some (.error (.unreadable .numberCut)) := by
  rfl

end SymbolAtlas.Payload
