import Mathlib.Algebra.Order.Group.Nat
import Mathlib.Data.List.Induction
import Mathlib.Data.List.TakeWhile

/-!
# External data representation

A filter (`Xdr`) describes how a value is laid out in units of four bytes; the same filter
encodes and decodes. Numbers are sent in 32 bits, so that of a longer one only the low bits
arrive (`Xdr.received`, `Xdr.decode_encode`). What a filter accepts is a value that it can
send (`Xdr.fits_of_decode`), and what is cut short is not accepted (`Xdr.decode_cut`).

A decoder takes its bytes from a source. It does not matter from which one, as long as the
source gives out the bytes of a list one after the other (`Xdr.decode_simulates`).
-/

namespace Foundation

universe u v

/-! ## Sources of bytes -/

/-- Take some bytes; a source that has too few of them is used up. -/
abbrev Source (σ : Type u) :=
  (count : Nat) → σ → Option { bytes : List UInt8 // bytes.length = count } × σ

/-- A list of bytes, to be taken from its front. -/
def flat : Source (List UInt8) := fun count input =>
  if enough : count ≤ input.length then
    (some ⟨input.take count, List.length_take_of_le enough⟩, input.drop count)
  else (none, [])

/-- A computation on a source that can fail. -/
abbrev Decoder (σ : Type u) (α : Type v) := σ → Option α × σ

namespace Decoder

variable {σ : Type u} {α β : Type v}

def pure (a : α) : Decoder σ α := fun s => (some a, s)

def fail : Decoder σ α := fun s => (none, s)

def bind {α : Type} {β : Type v} (first : Decoder σ α) (next : α → Decoder σ β) : Decoder σ β :=
  fun s =>
    match first s with
    | (some a, t) => next a t
    | (none, t) => (none, t)

section Binds

variable {α : Type} {first : Decoder σ α} {next : α → Decoder σ β} {s t : σ}

theorem bind_some {a : α} (taken : first s = (some a, t)) : first.bind next s = next a t := by
  rw [bind, taken]

theorem bind_none (taken : first s = (none, t)) : first.bind next s = (none, t) := by
  rw [bind, taken]

/-- A bind fails where its first step fails, and where the next one fails behind it. -/
theorem bind_fst_none (failed : (first s).1 = none) : (first.bind next s).1 = none := by
  cases taken : first s with
  | mk result t =>
      rw [taken] at failed
      cases failed
      rw [bind_none taken]

/-- A bind that succeeds comes from two steps that do. -/
theorem of_bind {b : β} {u : σ} (taken : first.bind next s = (some b, u)) :
    ∃ a t, first s = (some a, t) ∧ next a t = (some b, u) := by
  cases before : first s with
  | mk result t =>
      cases result with
      | none =>
          rw [bind_none before] at taken
          cases taken
      | some a =>
          rw [bind_some before] at taken
          exact ⟨a, t, rfl, taken⟩

end Binds

/-- Run a decoder some times, one after the other. -/
def many {α : Type} (decoder : Decoder σ α) :
    (count : Nat) → Decoder σ { elements : List α // elements.length = count }
  | 0 => pure ⟨[], rfl⟩
  | count + 1 => decoder.bind fun a => (many decoder count).bind fun others =>
      pure ⟨a :: others.val, by rw [List.length_cons, others.2]⟩

/-! A relation between two sources that decoders keep as long as the first one succeeds, and
a condition on a source that they keep in any case. -/

section Relations

variable {τ : Type v} {α β : Type} (related : σ → τ → Prop) (inv : σ → Prop)

/-- Where the first decoder succeeds, the second one does, with the same value. -/
def Simulates (first : Decoder σ α) (second : Decoder τ α) : Prop :=
  ∀ s t a s', related s t → first s = (some a, s') →
    ∃ t', second t = (some a, t') ∧ related s' t'

/-- The condition holds behind the decoder. -/
def Keeps (decoder : Decoder σ α) : Prop := ∀ s, inv s → inv (decoder s).2

variable {related} {inv}

theorem Simulates.pure (a : α) : Simulates related (pure a) (pure a) := by
  intro s t b s' same taken
  cases taken
  exact ⟨t, rfl, same⟩

theorem Simulates.fail : Simulates related (fail : Decoder σ α) (fail : Decoder τ α) := by
  intro s t b s' same taken
  cases taken

theorem Simulates.bind {first : Decoder σ α} {second : Decoder τ α} {next : α → Decoder σ β}
    {next' : α → Decoder τ β} (before : Simulates related first second)
    (after : ∀ a, Simulates related (next a) (next' a)) :
    Simulates related (first.bind next) (second.bind next') := by
  intro s t b s' same taken
  obtain ⟨a, middle, one, two⟩ := of_bind taken
  obtain ⟨middle', one', same'⟩ := before s t a middle same one
  obtain ⟨t', two', last⟩ := after a middle middle' b s' same' two
  exact ⟨t', (bind_some one').trans two', last⟩

theorem Simulates.many {first : Decoder σ α} {second : Decoder τ α}
    (one : Simulates related first second) (count : Nat) :
    Simulates related (many first count) (many second count) := by
  induction count with
  | zero => exact .pure _
  | succ count ih => exact one.bind fun a => ih.bind fun others => .pure _

theorem Keeps.pure (a : α) : Keeps inv (pure a : Decoder σ α) := fun _ holds => holds

theorem Keeps.fail : Keeps inv (fail : Decoder σ α) := fun _ holds => holds

theorem Keeps.bind {first : Decoder σ α} {next : α → Decoder σ β} (before : Keeps inv first)
    (after : ∀ a, Keeps inv (next a)) : Keeps inv (first.bind next) := by
  intro s holds
  have middle := before s holds
  cases taken : first s with
  | mk result t =>
      rw [taken] at middle
      cases result with
      | none =>
          rw [bind_none taken]
          exact middle
      | some a =>
          rw [bind_some taken]
          exact after a t middle

theorem Keeps.many {decoder : Decoder σ α} (one : Keeps inv decoder) (count : Nat) :
    Keeps inv (many decoder count) := by
  induction count with
  | zero => exact .pure _
  | succ count ih => exact one.bind fun a => ih.bind fun others => .pure _

end Relations

end Decoder

/-! ## Words and padding -/

/-- A number of 32 bits, its high byte first. -/
def putWord (n : Nat) : List UInt8 :=
  [UInt8.ofNat (n / 2 ^ 24), UInt8.ofNat (n / 2 ^ 16), UInt8.ofNat (n / 2 ^ 8), UInt8.ofNat n]

/-- The number that some bytes stand for. -/
def wordOf (bytes : List UInt8) : Nat :=
  bytes.foldl (fun value byte => value * 2 ^ 8 + byte.toNat) 0

@[simp]
theorem length_putWord (n : Nat) : (putWord n).length = 4 := rfl

theorem wordOf_putWord (n : Nat) : wordOf (putWord n) = n % 2 ^ 32 := by
  simp only [wordOf, putWord, List.foldl_cons, List.foldl_nil, UInt8.toNat_ofNat']
  omega

theorem wordOf_lt_pow (bytes : List UInt8) : wordOf bytes < 2 ^ (8 * bytes.length) := by
  induction bytes using List.reverseRecOn with
  | nil => exact Nat.one_pos
  | append_singleton bytes byte ih =>
      have low := byte.toNat_lt
      have sum : wordOf (bytes ++ [byte]) = wordOf bytes * 2 ^ 8 + byte.toNat := by
        rw [wordOf, List.foldl_append]
        rfl
      rw [sum, List.length_append, List.length_singleton, Nat.mul_add, Nat.pow_add]
      omega

theorem wordOf_lt {bytes : List UInt8} (word : bytes.length = 4) : wordOf bytes < 2 ^ 32 := by
  have bound := wordOf_lt_pow bytes
  rwa [word] at bound

/-- The bytes that fill up the last unit. -/
def padding (count : Nat) : Nat := (4 - count % 4) % 4

/-- Bytes with their padding. -/
def putPadded (bytes : List UInt8) : List UInt8 :=
  bytes ++ List.replicate (padding bytes.length) 0

/-- The bytes of a text before its terminator. -/
def cutAtNul (bytes : List UInt8) : List UInt8 := bytes.takeWhile fun byte => byte != 0

/-- A text in memory: no terminator in it, and its size, with the terminator, in 32 bits. -/
def IsText (bytes : List UInt8) : Prop :=
  (∀ byte ∈ bytes, byte ≠ 0) ∧ bytes.length + 1 < 2 ^ 32

theorem cutAtNul_isText {bytes : List UInt8} (short : bytes.length + 1 < 2 ^ 32) :
    IsText (cutAtNul bytes) := by
  refine ⟨?_, ?_⟩
  · intro byte listed
    simpa using List.mem_takeWhile_imp listed
  · have shorter : (cutAtNul bytes).length ≤ bytes.length :=
      (List.takeWhile_sublist _).length_le
    omega

theorem cutAtNul_of_isText {bytes : List UInt8} (text : IsText bytes) : cutAtNul bytes = bytes := by
  refine List.takeWhile_eq_self_iff.mpr ?_
  intro byte listed
  simpa using text.1 byte listed

/-! ## Writing -/

/-- What a writer has put out, and whether it has come to its end. -/
structure Written where
  bytes : List UInt8
  whole : Bool

namespace Written

def put (bytes : List UInt8) : Written := ⟨bytes, true⟩

def refused : Written := ⟨[], false⟩

/-- One part and, if it is put out to its end, the next one. -/
def andThen (first next : Written) : Written :=
  if first.whole then ⟨first.bytes ++ next.bytes, next.whole⟩ else first

def all : List Written → Written
  | [] => put []
  | first :: others => first.andThen (all others)

variable {first next : Written}

theorem all_cons (first : Written) (others : List Written) :
    all (first :: others) = first.andThen (all others) := rfl

@[simp]
theorem put_andThen (bytes : List UInt8) :
    (put bytes).andThen next = ⟨bytes ++ next.bytes, next.whole⟩ := rfl

theorem andThen_whole : (first.andThen next).whole = (first.whole && next.whole) := by
  rw [andThen]
  cases whole : first.whole <;> simp [whole]

theorem andThen_of_whole (whole : first.whole = true) :
    first.andThen next = ⟨first.bytes ++ next.bytes, next.whole⟩ := by
  rw [andThen, if_pos whole]

theorem andThen_of_not_whole (part : first.whole = false) : first.andThen next = first := by
  rw [andThen, if_neg (Bool.eq_false_iff.mp part)]

end Written

/-! ## Filters -/

/-- The filters: those of the library, and how others are put together from them. An array
knows the size of its elements in memory. -/
inductive Xdr where
  | void
  | uLong
  | enum
  | uShort
  | string
  | fixed (length : Nat)
  | bytes
  | pair (first second : Xdr)
  | array (elementSize : Nat) (element : Xdr)
  | union (accepts : UInt32 → Bool) (arm : UInt32 → Xdr)

namespace Xdr

/-- The values in memory that a filter is for. -/
@[reducible]
def Val : Xdr → Type
  | void => Unit
  | uLong => UInt64
  | enum => UInt32
  | uShort => UInt16
  | string => { text : List UInt8 // IsText text }
  | fixed length => { data : List UInt8 // data.length = length }
  | bytes => { data : List UInt8 // data.length < 2 ^ 32 }
  | pair first second => first.Val × second.Val
  | array _ element => { elements : List element.Val // elements.length < 2 ^ 32 }
  | union _ arm => (tag : UInt32) × (arm tag).Val

/-- A structure: its fields one after the other. -/
def record : List Xdr → Xdr
  | [] => void
  | field :: others => pair field (record others)

/-- A union with some known discriminants, and perhaps an arm for all others. -/
def switch (arms : List (UInt32 × Xdr)) (otherwise : Option Xdr) : Xdr :=
  union (fun tag => ((arms.lookup tag).or otherwise).isSome)
    fun tag => ((arms.lookup tag).or otherwise).getD void

/-- Encode a value: the bytes that are put out, and whether it is encoded to its end. A union
with an unknown discriminant and an array that is too large for an address end it. -/
def encode : (x : Xdr) → x.Val → Written
  | void, _ => .put []
  | uLong, value => .put (putWord (value : UInt64).toNat)
  | enum, value => .put (putWord (value : UInt32).toNat)
  | uShort, value => .put (putWord (value : UInt16).toNat)
  | string, text => .put (putWord text.val.length ++ putPadded text.val)
  | fixed _, data => .put (putPadded data.val)
  | bytes, data => .put (putWord data.val.length ++ putPadded data.val)
  | pair first second, value => (first.encode value.1).andThen (second.encode value.2)
  | array elementSize element, elements =>
      (Written.put (putWord elements.val.length)).andThen
        (if elements.val.length * elementSize < 2 ^ 32 then
          Written.all (elements.val.map element.encode)
        else .refused)
  | union accepts arm, value =>
      (Written.put (putWord value.1.toNat)).andThen
        (if accepts value.1 then (arm value.1).encode value.2 else .refused)

section Decode

variable {σ : Type u} (get : Source σ)

/-- Decode a number. -/
def getWord : Decoder σ { n : Nat // n < 2 ^ 32 } :=
  Decoder.bind (get 4) fun word => .pure ⟨wordOf word.val, wordOf_lt word.2⟩

/-- Decode bytes and skip their padding. -/
def getPadded (count : Nat) : Decoder σ { data : List UInt8 // data.length = count } :=
  Decoder.bind (get count) fun data => Decoder.bind (get (padding count)) fun _ => .pure data

/-- Decode a value. A text that leaves no room for its terminator is refused. -/
def decode : (x : Xdr) → Decoder σ x.Val
  | void => .pure ()
  | uLong => (getWord get).bind fun n => .pure (UInt64.ofNat n.val)
  | enum => (getWord get).bind fun n => .pure (UInt32.ofNat n.val)
  | uShort => (getWord get).bind fun n => .pure (UInt16.ofNat n.val)
  | string => (getWord get).bind fun size =>
      if short : size.val + 1 < 2 ^ 32 then
        (getPadded get size.val).bind fun data =>
          .pure ⟨cutAtNul data.val, cutAtNul_isText (data.2.symm ▸ short)⟩
      else .fail
  | fixed length => (getPadded get length).bind fun data => .pure data
  | bytes => (getWord get).bind fun size =>
      (getPadded get size.val).bind fun data => .pure ⟨data.val, data.2.symm ▸ size.2⟩
  | pair first second => first.decode.bind fun a => second.decode.bind fun b => .pure (a, b)
  | array elementSize element => (getWord get).bind fun count =>
      if count.val * elementSize < 2 ^ 32 then
        (Decoder.many element.decode count.val).bind fun elements =>
          .pure ⟨elements.val, elements.2.symm ▸ count.2⟩
      else .fail
  | union accepts arm => (getWord get).bind fun n =>
      if accepts (UInt32.ofNat n.val) then
        (arm (UInt32.ofNat n.val)).decode.bind fun value => .pure ⟨UInt32.ofNat n.val, value⟩
      else .fail

end Decode

/-- What arrives of a value: of each number the low 32 bits. -/
def received : (x : Xdr) → x.Val → x.Val
  | void, value => value
  | uLong, value => UInt64.ofNat ((value : UInt64).toNat % 2 ^ 32)
  | enum, value => value
  | uShort, value => value
  | string, text => text
  | fixed _, data => data
  | bytes, data => data
  | pair first second, value => (first.received value.1, second.received value.2)
  | array _ element, elements =>
      ⟨elements.val.map element.received, by rw [List.length_map]; exact elements.2⟩
  | union _ arm, value => ⟨value.1, (arm value.1).received value.2⟩

/-- Values that can be encoded to their end. -/
def Sendable : (x : Xdr) → x.Val → Prop
  | pair first second, value => first.Sendable value.1 ∧ second.Sendable value.2
  | array elementSize element, elements =>
      elements.val.length * elementSize < 2 ^ 32 ∧ ∀ value ∈ elements.val, element.Sendable value
  | union accepts arm, value => accepts value.1 = true ∧ (arm value.1).Sendable value.2
  | _, _ => True

/-- Values that can be sent and arrive as they are. -/
def Fits : (x : Xdr) → x.Val → Prop
  | uLong, value => (value : UInt64).toNat < 2 ^ 32
  | pair first second, value => first.Fits value.1 ∧ second.Fits value.2
  | array elementSize element, elements =>
      elements.val.length * elementSize < 2 ^ 32 ∧ ∀ value ∈ elements.val, element.Fits value
  | union accepts arm, value => accepts value.1 = true ∧ (arm value.1).Fits value.2
  | _, _ => True

/-! ## From a list of bytes -/

theorem flat_append {front rest : List UInt8} {count : Nat} (length : front.length = count) :
    flat count (front ++ rest) = (some ⟨front, length⟩, rest) := by
  subst length
  have enough : front.length ≤ (front ++ rest).length := by
    rw [List.length_append]
    omega
  rw [flat, dif_pos enough]
  simp only [List.take_left, List.drop_left]

/-- What is taken from a list stands at its front. -/
theorem flat_some {input rest : List UInt8} {count : Nat}
    {front : { bytes : List UInt8 // bytes.length = count }}
    (taken : flat count input = (some front, rest)) : input = front.val ++ rest := by
  rw [flat] at taken
  split at taken <;> cases taken
  exact (List.take_append_drop _ _).symm

theorem flat_short {input : List UInt8} {count : Nat} (short : input.length < count) :
    flat count input = (none, []) := dif_neg (Nat.not_le.mpr short)

/-- Bytes can be taken in two steps. -/
theorem flat_take {input : List UInt8} {few count : Nat} (front : few ≤ input.length)
    (part : few ≤ count) :
    flat count input =
      ((flat (count - few) (input.drop few)).1.map fun more =>
        ⟨input.take few ++ more.val, by
          rw [List.length_append, more.2, List.length_take_of_le front, Nat.add_sub_cancel' part]⟩,
        (flat (count - few) (input.drop few)).2) := by
  have length : (input.drop few).length = input.length - few := List.length_drop
  by_cases enough : count ≤ input.length
  · have behind : count - few ≤ (input.drop few).length := by omega
    have whole : input.take count = input.take few ++ (input.drop few).take (count - few) := by
      rw [← List.take_add, Nat.add_sub_cancel' part]
    rw [flat, dif_pos enough, flat, dif_pos behind]
    simp only [Option.map_some, whole, List.drop_drop, Nat.add_sub_cancel' part]
  · have behind : (input.drop few).length < count - few := by omega
    rw [flat_short (Nat.not_le.mp enough), flat_short behind]
    rfl

theorem getWord_putWord (n : Nat) (rest : List UInt8) :
    getWord flat (putWord n ++ rest) =
      (some ⟨n % 2 ^ 32, Nat.mod_lt _ (Nat.two_pow_pos 32)⟩, rest) := by
  rw [getWord, Decoder.bind_some (flat_append (length_putWord n)), Decoder.pure]
  simp only [wordOf_putWord]

theorem getWord_of_lt {n : Nat} (small : n < 2 ^ 32) (rest : List UInt8) :
    getWord flat (putWord n ++ rest) = (some ⟨n, small⟩, rest) := by
  rw [getWord_putWord]
  simp only [Nat.mod_eq_of_lt small]

theorem getPadded_putPadded {data : List UInt8} {count : Nat} (length : data.length = count)
    (rest : List UInt8) : getPadded flat count (putPadded data ++ rest) =
      (some ⟨data, length⟩, rest) := by
  rw [getPadded, putPadded, List.append_assoc, Decoder.bind_some (flat_append length),
    Decoder.bind_some (flat_append (by rw [List.length_replicate, length]))]
  rfl

/-- The elements of an array, one after the other. -/
theorem many_all {element : Xdr} {elements : List element.Val}
    (one : ∀ value ∈ elements, ∀ rest, (element.encode value).whole = true →
      element.decode flat ((element.encode value).bytes ++ rest) =
        (some (element.received value), rest))
    (whole : (Written.all (elements.map element.encode)).whole = true) {count : Nat}
    (length : elements.length = count) (rest : List UInt8) :
    ∃ arrived, arrived.val = elements.map element.received ∧
      Decoder.many (element.decode flat) count
        ((Written.all (elements.map element.encode)).bytes ++ rest) = (some arrived, rest) := by
  induction elements generalizing count with
  | nil =>
      subst length
      exact ⟨⟨[], rfl⟩, rfl, rfl⟩
  | cons value elements ih =>
      rw [List.map_cons, Written.all_cons, Written.andThen_whole, Bool.and_eq_true] at whole
      cases count with
      | zero => cases length
      | succ count =>
          have others := ih (fun value listed => one value (List.mem_cons_of_mem _ listed)) whole.2
            (Nat.succ.inj length)
          obtain ⟨⟨arrived, sized⟩, those, run⟩ := others
          have front : (Written.all ((value :: elements).map element.encode)).bytes =
              (element.encode value).bytes ++
                (Written.all (elements.map element.encode)).bytes := by
            rw [List.map_cons, Written.all_cons, Written.andThen_of_whole whole.1]
          rw [front, List.append_assoc, Decoder.many,
            Decoder.bind_some (one value List.mem_cons_self _ whole.1),
            Decoder.bind_some run, Decoder.pure]
          refine ⟨_, ?_, rfl⟩
          exact congrArg (element.received value :: ·) those

/-- **What arrives.** A value that is encoded to its end is decoded to what arrives of it,
and what comes behind it is left alone. -/
theorem decode_encode (x : Xdr) {value : x.Val} (whole : (x.encode value).whole = true)
    (rest : List UInt8) :
    x.decode flat ((x.encode value).bytes ++ rest) = (some (x.received value), rest) := by
  induction x generalizing rest with
  | void => rfl
  | uLong =>
      rw [decode, encode, Written.put, Decoder.bind_some (getWord_putWord _ _)]
      rfl
  | enum =>
      rw [decode, encode, Written.put, Decoder.bind_some (getWord_of_lt (UInt32.toNat_lt value) _),
        Decoder.pure, UInt32.ofNat_toNat]
      rfl
  | uShort =>
      have small : UInt16.toNat value < 2 ^ 32 :=
        Nat.lt_of_lt_of_le (UInt16.toNat_lt value) (by decide)
      rw [decode, encode, Written.put, Decoder.bind_some (getWord_of_lt small _), Decoder.pure,
        UInt16.ofNat_toNat]
      rfl
  | string =>
      obtain ⟨text, isText⟩ := value
      have small : text.length < 2 ^ 32 := Nat.lt_of_succ_lt isText.2
      rw [decode, encode, Written.put, List.append_assoc,
        Decoder.bind_some (getWord_of_lt small _)]
      dsimp only
      rw [dif_pos isText.2, Decoder.bind_some (getPadded_putPadded rfl _), Decoder.pure]
      simp only [cutAtNul_of_isText isText]
      rfl
  | fixed length =>
      rw [decode, encode, Written.put, Decoder.bind_some (getPadded_putPadded value.2 _)]
      rfl
  | bytes =>
      obtain ⟨data, small⟩ := value
      rw [decode, encode, Written.put, List.append_assoc,
        Decoder.bind_some (getWord_of_lt small _)]
      dsimp only
      rw [Decoder.bind_some (getPadded_putPadded rfl _)]
      rfl
  | pair first second ih₁ ih₂ =>
      rw [encode, Written.andThen_whole, Bool.and_eq_true] at whole
      rw [decode, encode, Written.andThen_of_whole whole.1, List.append_assoc,
        Decoder.bind_some (ih₁ whole.1 _), Decoder.bind_some (ih₂ whole.2 _)]
      rfl
  | array elementSize element ih =>
      obtain ⟨elements, short⟩ := value
      rw [encode, Written.put_andThen] at whole ⊢
      dsimp only at whole ⊢
      by_cases small : elements.length * elementSize < 2 ^ 32
      · rw [if_pos small] at whole ⊢
        obtain ⟨arrived, those, run⟩ :=
          many_all (fun value listed rest whole => ih whole rest) whole rfl rest
        rw [decode, List.append_assoc, Decoder.bind_some (getWord_of_lt short _)]
        dsimp only
        rw [if_pos small, Decoder.bind_some run, Decoder.pure, received]
        simp only [those]
      · rw [if_neg small] at whole
        cases whole
  | union accepts arm ih =>
      obtain ⟨tag, value⟩ := value
      rw [encode, Written.put_andThen] at whole ⊢
      dsimp only at whole ⊢
      by_cases known : accepts tag = true
      · rw [if_pos known] at whole ⊢
        rw [decode, List.append_assoc, Decoder.bind_some (getWord_of_lt tag.toNat_lt _)]
        dsimp only
        rw [UInt32.ofNat_toNat, if_pos known, Decoder.bind_some (ih tag whole rest)]
        rfl
      · rw [if_neg known] at whole
        cases whole

/-- Elements of which one is not encoded to its end. -/
theorem many_refused {element : Xdr} {elements : List element.Val}
    (one : ∀ value ∈ elements, ∀ rest, (element.encode value).whole = false →
      (element.decode flat ((element.encode value).bytes ++ rest)).1 = none)
    (part : (Written.all (elements.map element.encode)).whole = false) {count : Nat}
    (length : elements.length = count) (rest : List UInt8) :
    (Decoder.many (element.decode flat) count
      ((Written.all (elements.map element.encode)).bytes ++ rest)).1 = none := by
  induction elements generalizing count with
  | nil => cases part
  | cons value elements ih =>
      rw [List.map_cons, Written.all_cons] at part ⊢
      cases count with
      | zero => cases length
      | succ count =>
          cases whole : (element.encode value).whole with
          | false =>
              rw [Written.andThen_of_not_whole whole]
              exact Decoder.bind_fst_none (one value List.mem_cons_self _ whole)
          | true =>
              rw [Written.andThen_of_whole whole] at part ⊢
              have others := ih (fun value listed => one value (List.mem_cons_of_mem _ listed))
                part (Nat.succ.inj length)
              rw [List.append_assoc, Decoder.many,
                Decoder.bind_some (element.decode_encode whole _)]
              exact Decoder.bind_fst_none others

/-- **What is not encoded to its end** is not accepted, whatever comes behind it. -/
theorem decode_refused (x : Xdr) {value : x.Val} (part : (x.encode value).whole = false)
    (rest : List UInt8) :
    (x.decode flat ((x.encode value).bytes ++ rest)).1 = none := by
  induction x generalizing rest with
  | void | uLong | enum | uShort | string | fixed | bytes => cases part
  | pair first second ih₁ ih₂ =>
      rw [encode] at part ⊢
      cases whole : (first.encode value.1).whole with
      | false =>
          rw [Written.andThen_of_not_whole whole]
          exact Decoder.bind_fst_none (ih₁ whole rest)
      | true =>
          rw [Written.andThen_of_whole whole] at part ⊢
          rw [decode, List.append_assoc, Decoder.bind_some (first.decode_encode whole _)]
          exact Decoder.bind_fst_none (ih₂ part rest)
  | array elementSize element ih =>
      obtain ⟨elements, short⟩ := value
      rw [encode, Written.put_andThen] at part ⊢
      dsimp only at part ⊢
      rw [decode, List.append_assoc, Decoder.bind_some (getWord_of_lt short _)]
      dsimp only
      by_cases small : elements.length * elementSize < 2 ^ 32
      · rw [if_pos small] at part ⊢
        rw [if_pos small]
        have refused := many_refused (fun value listed rest part => ih part rest) part rfl rest
        exact Decoder.bind_fst_none refused
      · rw [if_neg small]
        rfl
  | union accepts arm ih =>
      obtain ⟨tag, value⟩ := value
      rw [encode, Written.put_andThen] at part ⊢
      dsimp only at part ⊢
      rw [decode, List.append_assoc, Decoder.bind_some (getWord_of_lt tag.toNat_lt _)]
      dsimp only
      rw [UInt32.ofNat_toNat]
      by_cases known : accepts tag = true
      · rw [if_pos known] at part ⊢
        rw [if_pos known]
        exact Decoder.bind_fst_none (ih tag part rest)
      · rw [if_neg known]
        rfl

/-! ## Values that fit -/

theorem received_of_fits (x : Xdr) {value : x.Val} (fits : x.Fits value) :
    x.received value = value := by
  induction x with
  | void | enum | uShort | string | fixed | bytes => rfl
  | uLong =>
      have small : UInt64.toNat value < 2 ^ 32 := fits
      rw [received, Nat.mod_eq_of_lt small, UInt64.ofNat_toNat]
  | pair first second ih₁ ih₂ =>
      rw [received, ih₁ fits.1, ih₂ fits.2]
  | array elementSize element ih =>
      obtain ⟨elements, small⟩ := value
      rw [received]
      congr 1
      calc elements.map element.received
          = elements.map id := List.map_congr_left fun value listed => ih (fits.2 value listed)
        _ = elements := List.map_id _
  | union accepts arm ih =>
      obtain ⟨tag, value⟩ := value
      rw [received, ih tag fits.2]

theorem all_whole {element : Xdr} {elements : List element.Val}
    (one : ∀ value ∈ elements, (element.encode value).whole = true) :
    (Written.all (elements.map element.encode)).whole = true := by
  induction elements with
  | nil => rfl
  | cons value elements ih =>
      rw [List.map_cons, Written.all_cons, Written.andThen_whole, one value List.mem_cons_self,
        ih fun value listed => one value (List.mem_cons_of_mem _ listed)]
      rfl

theorem encode_whole (x : Xdr) {value : x.Val} (sendable : x.Sendable value) :
    (x.encode value).whole = true := by
  induction x with
  | void | enum | uShort | string | fixed | bytes | uLong => rfl
  | pair first second ih₁ ih₂ =>
      rw [encode, Written.andThen_whole, ih₁ sendable.1, ih₂ sendable.2]
      rfl
  | array elementSize element ih =>
      rw [encode, Written.put_andThen, if_pos sendable.1]
      exact all_whole fun value listed => ih (sendable.2 value listed)
  | union accepts arm ih =>
      rw [encode, Written.put_andThen, if_pos sendable.1]
      exact ih value.1 sendable.2

theorem Fits.sendable {x : Xdr} {value : x.Val} (fits : x.Fits value) : x.Sendable value := by
  induction x with
  | void | enum | uShort | string | fixed | bytes | uLong => trivial
  | pair first second ih₁ ih₂ => exact ⟨ih₁ fits.1, ih₂ fits.2⟩
  | array elementSize element ih =>
      exact ⟨fits.1, fun value listed => ih (fits.2 value listed)⟩
  | union accepts arm ih => exact ⟨fits.1, ih value.1 fits.2⟩

/-- A value that fits arrives as it is. -/
theorem decode_of_fits (x : Xdr) {value : x.Val} (fits : x.Fits value) (rest : List UInt8) :
    x.decode flat ((x.encode value).bytes ++ rest) = (some value, rest) := by
  rw [x.decode_encode (x.encode_whole fits.sendable) rest, x.received_of_fits fits]

section AnySource

variable {σ : Type u} {get : Source σ}

theorem many_fits {element : Xdr}
    (one : ∀ s t value, element.decode get s = (some value, t) → element.Fits value) {count : Nat}
    {s t : σ} {elements : { elements : List element.Val // elements.length = count }}
    (those : Decoder.many (element.decode get) count s = (some elements, t)) :
    ∀ value ∈ elements.val, element.Fits value := by
  induction count generalizing s t with
  | zero =>
      cases those
      intro value listed
      cases listed
  | succ count ih =>
      obtain ⟨a, middle, first, more⟩ := Decoder.of_bind those
      obtain ⟨others, last, remaining, made⟩ := Decoder.of_bind more
      cases made
      intro value listed
      rcases List.mem_cons.mp listed with rfl | later
      · exact one _ _ _ first
      · exact ih remaining value later

/-- What is decoded fits. -/
theorem fits_of_decode (x : Xdr) {value : x.Val} {s t : σ}
    (decoded : x.decode get s = (some value, t)) : x.Fits value := by
  induction x generalizing s t with
  | void | enum | uShort | string | fixed | bytes => trivial
  | uLong =>
      obtain ⟨n, middle, -, made⟩ := Decoder.of_bind decoded
      cases made
      change (UInt64.ofNat n.val).toNat < 2 ^ 32
      have small := n.2
      rw [UInt64.toNat_ofNat']
      omega
  | pair first second ih₁ ih₂ =>
      obtain ⟨a, middle, one, more⟩ := Decoder.of_bind decoded
      obtain ⟨b, last, two, made⟩ := Decoder.of_bind more
      cases made
      exact ⟨ih₁ one, ih₂ two⟩
  | array elementSize element ih =>
      obtain ⟨count, middle, -, more⟩ := Decoder.of_bind decoded
      split at more
      · next small =>
          obtain ⟨elements, last, those, made⟩ := Decoder.of_bind more
          cases made
          refine ⟨?_, ?_⟩
          · dsimp only
            rw [elements.2]
            exact small
          · intro value listed
            exact many_fits (fun s t value one => ih one) those value listed
      · cases more
  | union accepts arm ih =>
      obtain ⟨n, middle, -, more⟩ := Decoder.of_bind decoded
      split at more
      · next known =>
          obtain ⟨value, last, one, made⟩ := Decoder.of_bind more
          cases made
          exact ⟨known, ih _ one⟩
      · cases more

/-- A condition on the source that taking bytes keeps, decoding keeps. -/
theorem decode_keeps {inv : σ → Prop} (kept : ∀ count s, inv s → inv (get count s).2) (x : Xdr) :
    Decoder.Keeps inv (x.decode get) := by
  have word : Decoder.Keeps inv (getWord get) := Decoder.Keeps.bind (kept 4) fun _ => .pure _
  have padded : ∀ count, Decoder.Keeps inv (getPadded get count) := fun count =>
    Decoder.Keeps.bind (kept count) fun _ => .bind (kept (padding count)) fun _ => .pure _
  induction x with
  | void => exact .pure _
  | uLong | enum | uShort => exact word.bind fun _ => .pure _
  | string =>
      refine word.bind fun size => ?_
      split
      · exact (padded size.val).bind fun _ => .pure _
      · exact .fail
  | fixed length => exact (padded length).bind fun _ => .pure _
  | bytes => exact word.bind fun size => (padded size.val).bind fun _ => .pure _
  | pair first second ih₁ ih₂ => exact ih₁.bind fun _ => ih₂.bind fun _ => .pure _
  | array elementSize element ih =>
      refine word.bind fun count => ?_
      split
      · exact (ih.many count.val).bind fun _ => .pure _
      · exact .fail
  | union accepts arm ih =>
      refine word.bind fun n => ?_
      split
      · exact (ih _).bind fun _ => .pure _
      · exact .fail

/-- Where bytes can be taken from one source, they can be taken from the other: so it is
with what is decoded. -/
theorem decode_simulates {τ : Type u} {get' : Source τ} {related : σ → τ → Prop}
    (taken : ∀ count, Decoder.Simulates related (get count) (get' count)) (x : Xdr) :
    Decoder.Simulates related (x.decode get) (x.decode get') := by
  have word : Decoder.Simulates related (getWord get) (getWord get') :=
    Decoder.Simulates.bind (taken 4) fun _ => .pure _
  have padded : ∀ count, Decoder.Simulates related (getPadded get count) (getPadded get' count) :=
    fun count => Decoder.Simulates.bind (taken count) fun _ =>
      .bind (taken (padding count)) fun _ => .pure _
  induction x with
  | void => exact .pure _
  | uLong | enum | uShort => exact word.bind fun _ => .pure _
  | string =>
      refine word.bind fun size => ?_
      split
      · exact (padded size.val).bind fun _ => .pure _
      · exact .fail
  | fixed length => exact (padded length).bind fun _ => .pure _
  | bytes => exact word.bind fun size => (padded size.val).bind fun _ => .pure _
  | pair first second ih₁ ih₂ => exact ih₁.bind fun _ => ih₂.bind fun _ => .pure _
  | array elementSize element ih =>
      refine word.bind fun count => ?_
      split
      · exact (ih.many count.val).bind fun _ => .pure _
      · exact .fail
  | union accepts arm ih =>
      refine word.bind fun n => ?_
      split
      · exact (ih _).bind fun _ => .pure _
      · exact .fail

end AnySource

/-- More bytes behind the input do not matter. -/
theorem decode_append (x : Xdr) {value : x.Val} {input rest : List UInt8}
    (decoded : x.decode flat input = (some value, rest)) (more : List UInt8) :
    x.decode flat (input ++ more) = (some value, rest ++ more) := by
  have taken : ∀ count, Decoder.Simulates (fun front whole => whole = front ++ more)
      (flat count) (flat count) := by
    intro count front whole data rest same first
    cases same
    rw [flat_some first, List.append_assoc, flat_append data.2]
    exact ⟨_, rfl, rfl⟩
  obtain ⟨last, whole, same⟩ := decode_simulates taken x _ _ _ _ rfl decoded
  rw [whole, same]

/-- **What is cut short is not accepted**, and of what could not be encoded to its end no part
is. -/
theorem decode_cut (x : Xdr) {value : x.Val} {front lost : List UInt8}
    (cut : front ++ lost = (x.encode value).bytes)
    (short : lost ≠ [] ∨ (x.encode value).whole = false) : (x.decode flat front).1 = none := by
  cases decoded : x.decode flat front with
  | mk result rest =>
      cases result with
      | none => rfl
      | some other =>
          have longer := x.decode_append decoded lost
          rw [cut, ← List.append_nil (x.encode value).bytes] at longer
          cases whole : (x.encode value).whole with
          | false =>
              have refused := x.decode_refused whole []
              rw [longer] at refused
              cases refused
          | true =>
              have same := (x.decode_encode whole []).symm.trans longer
              have nothing := (List.append_eq_nil_iff.mp (congrArg Prod.snd same).symm).2
              rw [nothing, whole] at short
              simp at short

end Xdr

end Foundation
