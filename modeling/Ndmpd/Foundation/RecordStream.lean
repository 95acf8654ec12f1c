import Ndmpd.Foundation.Xdr

/-!
# Records on a stream of bytes

A record is sent in fragments, each behind a word with its length and a bit that marks the
last one. A reader takes bytes of one record across its fragments and none behind its end,
and goes to the next record by skipping what it has not taken. However the records are cut
into fragments, what is decoded from the stream is what is decoded from the bytes of the
record (`RecordStream.decode_within`), and whatever came of that, the next record follows
(`RecordStream.skipRecord_within`).
-/

namespace Foundation

/-- The reader's side of a stream: how much is left of the fragment, whether it is the last
one of its record, and what is still to come. -/
structure RecordStream where
  left : Nat
  lastFrag : Bool
  input : List UInt8

namespace RecordStream

/-- Read the word in front of a fragment. An empty fragment that is not the last one is
refused. -/
def setInputFragment (stream : RecordStream) : Bool × RecordStream :=
  if stream.input.length < 4 then (false, { stream with input := [] })
  else
    let header := wordOf (stream.input.take 4)
    let next := { stream with lastFrag := decide (2 ^ 31 ≤ header), input := stream.input.drop 4 }
    if header = 0 then (false, next) else (true, { next with left := header % 2 ^ 31 })

theorem setInputFragment_shorter {stream next : RecordStream}
    (read : stream.setInputFragment = (true, next)) :
    next.input.length < stream.input.length := by
  rw [setInputFragment] at read
  split at read
  · cases read
  · next long =>
      dsimp only at read
      split at read <;> cases read
      dsimp only
      rw [List.length_drop]
      omega

/-- Take bytes of the record. -/
def takeBytes : Source RecordStream := fun count stream =>
  if none_ : count = 0 then (some ⟨[], by rw [none_]; rfl⟩, stream)
  else if stream.left = 0 then
    if stream.lastFrag then (none, stream)
    else
      match read : stream.setInputFragment with
      | (false, next) => (none, next)
      | (true, next) => takeBytes count next
  else
    let current := min count stream.left
    if enough : current ≤ stream.input.length then
      match takeBytes (count - current)
          { stream with left := stream.left - current, input := stream.input.drop current } with
      | (some rest, next) =>
          (some ⟨stream.input.take current ++ rest.val, by
            rw [List.length_append, List.length_take_of_le enough, rest.2]
            omega⟩, next)
      | (none, next) => (none, next)
    else (none, { stream with input := [] })
  termination_by _ stream => stream.input.length
  decreasing_by
    · exact setInputFragment_shorter read
    · rw [List.length_drop]
      omega

/-- Go to the next record. -/
def skipRecord (stream : RecordStream) : Bool × RecordStream :=
  if _inside : 0 < stream.left ∨ stream.lastFrag = false then
    if stream.input.length < stream.left then (false, { stream with input := [] })
    else
      let skipped := { stream with left := 0, input := stream.input.drop stream.left }
      if _last : stream.lastFrag = true then skipRecord skipped
      else
        match _read : skipped.setInputFragment with
        | (false, next) => (false, next)
        | (true, next) => skipRecord next
  else (true, { stream with lastFrag := false })
  termination_by stream.input.length
  decreasing_by
    · rw [List.length_drop]
      simp only [_last, Bool.true_eq_false, or_false] at _inside
      omega
    · have shorter := setInputFragment_shorter _read
      rw [List.length_drop] at shorter
      omega

/-! ## Records in fragments -/

/-- A fragment as it is sent. -/
def putFragment (last : Bool) (bytes : List UInt8) : List UInt8 :=
  putWord (bytes.length + if last then 2 ^ 31 else 0) ++ bytes

/-- A record as it is sent: its fragments, the last one marked. -/
def putRecord : List (List UInt8) → List UInt8
  | [] => []
  | bytes :: others => putFragment others.isEmpty bytes ++ putRecord others

/-- How a record may be cut: at most the last fragment is empty, and the length of each one
leaves the bit of the mark free. -/
def Fragments : List (List UInt8) → Prop
  | [] => True
  | bytes :: others =>
      bytes.length < 2 ^ 31 ∧ (others ≠ [] → bytes ≠ []) ∧ Fragments others

/-- The stream stands within a record: what it has of the record yet is `rest`, and behind
the record comes `after`. -/
def Within (after : List UInt8) (stream : RecordStream) (rest : List UInt8) : Prop :=
  ∃ current frags, stream.left = current.length ∧ stream.lastFrag = frags.isEmpty ∧
    Fragments frags ∧ stream.input = current ++ (putRecord frags ++ after) ∧
    rest = current ++ frags.flatten

/-- A stream behind a record, with nothing read of the next one. -/
def start (input : List UInt8) : RecordStream := { left := 0, lastFrag := true, input }

theorem start_within (input : List UInt8) : Within input (start input) [] :=
  ⟨[], [], rfl, rfl, trivial, rfl, rfl⟩

/-- The word in front of a fragment tells its length and whether it is the last one. -/
theorem setInputFragment_putFragment {left : Nat} {lastFrag last : Bool} {bytes after : List UInt8}
    (short : bytes.length < 2 ^ 31) (sound : last = false → bytes ≠ []) :
    setInputFragment ⟨left, lastFrag, putFragment last bytes ++ after⟩ =
      (true, ⟨bytes.length, last, bytes ++ after⟩) := by
  have word : wordOf (putWord (bytes.length + if last then 2 ^ 31 else 0)) =
      bytes.length + if last then 2 ^ 31 else 0 := by
    rw [wordOf_putWord]
    refine Nat.mod_eq_of_lt ?_
    split <;> omega
  have enough : ¬ (putFragment last bytes ++ after).length < 4 := by
    rw [putFragment, List.append_assoc, List.length_append, length_putWord]
    omega
  rw [setInputFragment, if_neg enough]
  simp only [putFragment, List.append_assoc]
  rw [List.take_left' (length_putWord _), List.drop_left' (length_putWord _), word]
  cases last with
  | true =>
      have marked : 2 ^ 31 ≤ bytes.length + 2 ^ 31 := Nat.le_add_left _ _
      simp only [if_true, marked, decide_true, Nat.add_mod_right, Nat.mod_eq_of_lt short]
      exact if_neg (by omega)
  | false =>
      have some_ : bytes.length ≠ 0 := fun none => sound rfl (List.length_eq_zero_iff.mp none)
      have unmarked : ¬ 2 ^ 31 ≤ bytes.length := Nat.not_le.mpr short
      simp only [Bool.false_eq_true, if_false, Nat.add_zero, unmarked, decide_false,
        Nat.mod_eq_of_lt short]
      exact if_neg some_

section Within

variable {after rest : List UInt8} {stream : RecordStream}

/-- Behind the last fragment there is nothing of the record. -/
theorem Within.ended (within : Within after stream rest) (empty : stream.left = 0)
    (last : stream.lastFrag = true) : rest = [] := by
  obtain ⟨current, frags, left, lastFrag, cut, input, rfl⟩ := within
  have none_ : current = [] := List.length_eq_zero_iff.mp (left.symm.trans empty)
  have done : frags = [] := List.isEmpty_iff.mp (lastFrag.symm.trans last)
  rw [none_, done]
  rfl

/-- Behind another fragment comes the next one. -/
theorem Within.next (within : Within after stream rest) (empty : stream.left = 0)
    (more : stream.lastFrag = false) :
    ∃ next, stream.setInputFragment = (true, next) ∧ Within after next rest := by
  obtain ⟨left, lastFrag, input⟩ := stream
  obtain ⟨current, frags, same, marked, cut, shown, rfl⟩ := within
  have none_ : current = [] := List.length_eq_zero_iff.mp (same.symm.trans empty)
  subst none_
  cases frags with
  | nil => exact absurd (marked.symm.trans more) Bool.true_eq_false.mp
  | cons bytes others =>
      obtain ⟨short, sound, rest⟩ := cut
      have shown : input = putFragment others.isEmpty bytes ++ (putRecord others ++ after) :=
        shown.trans (List.append_assoc _ _ _)
      have sound : others.isEmpty = false → bytes ≠ [] := fun some_ =>
        sound (List.isEmpty_eq_false_iff.mp some_)
      rw [shown]
      exact ⟨_, setInputFragment_putFragment short sound, bytes, others, rfl, rfl, rest, rfl, rfl⟩

/-- Taking bytes of the fragment. -/
theorem Within.taken (within : Within after stream rest) {count : Nat}
    (few : count ≤ stream.left) :
    count ≤ stream.input.length ∧ count ≤ rest.length ∧
      stream.input.take count = rest.take count ∧
      Within after
        { stream with left := stream.left - count, input := stream.input.drop count }
        (rest.drop count) := by
  obtain ⟨current, frags, left, lastFrag, cut, input, rfl⟩ := within
  rw [left] at few
  refine ⟨?_, ?_, ?_, current.drop count, frags, ?_, lastFrag, cut, ?_, ?_⟩
  · rw [input, List.length_append]
    omega
  · rw [List.length_append]
    omega
  · rw [input, List.take_append_of_le_length few, List.take_append_of_le_length few]
  · rw [List.length_drop, left]
  · rw [input, List.drop_append_of_le_length few]
  · exact List.drop_append_of_le_length few

theorem Within.skipped (within : Within after stream rest) :
    Within after { stream with left := 0, input := stream.input.drop stream.left }
      (rest.drop stream.left) := by
  have behind := (within.taken (Nat.le_refl stream.left)).2.2.2
  rwa [Nat.sub_self] at behind

end Within

/-- **Bytes of a record.** Taking bytes from the stream is taking them from what is left of
the record, however it is cut. -/
theorem takeBytes_within {after rest : List UInt8} {stream : RecordStream} {count : Nat}
    (within : Within after stream rest) :
    (takeBytes count stream).1 = (flat count rest).1 ∧
      Within after (takeBytes count stream).2 (flat count rest).2 := by
  fun_induction takeBytes count stream generalizing rest with
  | case1 => exact ⟨rfl, within⟩
  | case2 count stream some_ empty last =>
      have nothing := within.ended empty last
      subst nothing
      rw [Xdr.flat_short (Nat.pos_of_ne_zero some_)]
      exact ⟨rfl, within⟩
  | case3 count stream some_ empty more next read =>
      obtain ⟨other, good, -⟩ := within.next empty (Bool.eq_false_of_not_eq_true more)
      cases read.symm.trans good
  | case4 count stream some_ empty more next read ih =>
      obtain ⟨other, good, inside⟩ := within.next empty (Bool.eq_false_of_not_eq_true more)
      cases read.symm.trans good
      exact ih inside
  | case5 count stream some_ left current enough others next taken =>
      rename_i ih
      obtain ⟨-, front, same, inside⟩ := within.taken (Nat.min_le_right count stream.left)
      obtain ⟨result, kept⟩ := ih inside
      rw [taken] at result kept
      rw [Xdr.flat_take front (Nat.min_le_left count stream.left), ← result]
      refine ⟨?_, kept⟩
      exact congrArg some (Subtype.ext (congrArg (· ++ others.val) same))
  | case6 count stream some_ left current enough next taken =>
      rename_i ih
      obtain ⟨-, front, same, inside⟩ := within.taken (Nat.min_le_right count stream.left)
      obtain ⟨result, kept⟩ := ih inside
      rw [taken] at result kept
      rw [Xdr.flat_take front (Nat.min_le_left count stream.left), ← result]
      exact ⟨rfl, kept⟩
  | case7 count stream some_ left current =>
      rename_i short
      exact absurd (within.taken (Nat.min_le_right count stream.left)).1 short

/-- **Decoding.** What is decoded from the stream is what is decoded from the bytes of the
record, and the stream still stands within the record. -/
theorem decode_within (x : Xdr) {after rest : List UInt8} {stream : RecordStream}
    (within : Within after stream rest) :
    (∃ value stream' rest', x.decode takeBytes stream = (some value, stream') ∧
      x.decode flat rest = (some value, rest') ∧ Within after stream' rest') ∨
    ∃ stream' rest' left, x.decode takeBytes stream = (none, stream') ∧
      x.decode flat rest = (none, rest') ∧ Within after stream' left := by
  have kept : ∀ count stream, (∃ rest, Within after stream rest) →
      ∃ rest, Within after (takeBytes count stream).2 rest := by
    rintro count stream ⟨rest, within⟩
    exact ⟨_, (takeBytes_within within).2⟩
  have forward : ∀ count, Decoder.Simulates (Within after) (takeBytes count) (flat count) := by
    intro count stream rest data stream' within taken
    obtain ⟨same, behind⟩ := @takeBytes_within _ _ _ count within
    rw [taken] at same behind
    exact ⟨_, Prod.ext same.symm rfl, behind⟩
  have backward : ∀ count, Decoder.Simulates (fun rest stream => Within after stream rest)
      (flat count) (takeBytes count) := by
    intro count rest stream data rest' within taken
    obtain ⟨same, behind⟩ := @takeBytes_within _ _ _ count within
    rw [taken] at same behind
    exact ⟨_, Prod.ext same rfl, behind⟩
  cases first : x.decode takeBytes stream with
  | mk result stream' =>
      cases result with
      | some value =>
          obtain ⟨rest', second, behind⟩ := Xdr.decode_simulates forward x _ _ _ _ within first
          exact .inl ⟨value, stream', rest', rfl, second, behind⟩
      | none =>
          obtain ⟨left, behind⟩ := Xdr.decode_keeps kept x stream ⟨rest, within⟩
          rw [first] at behind
          cases second : x.decode flat rest with
          | mk other rest' =>
              cases other with
              | none => exact .inr ⟨stream', rest', left, rfl, rfl, behind⟩
              | some value =>
                  obtain ⟨_, third, -⟩ :=
                    Xdr.decode_simulates backward x _ _ _ _ within second
                  cases first.symm.trans third

/-! ## From one record to the next -/

/-- **The next record.** Wherever the stream stands within a record, skipping the record
leads in front of the next one. -/
theorem skipRecord_within {after rest : List UInt8} {stream : RecordStream}
    (within : Within after stream rest) :
    stream.skipRecord = (true, { left := 0, lastFrag := false, input := after }) := by
  fun_induction skipRecord stream generalizing rest with
  | case1 stream inside short =>
      exact absurd (within.taken (Nat.le_refl stream.left)).1 (Nat.not_le.mpr short)
  | case2 stream inside long skipped last =>
      rename_i ih
      exact ih within.skipped
  | case3 stream inside long skipped more next =>
      rename_i read
      obtain ⟨other, good, -⟩ := within.skipped.next rfl (Bool.eq_false_of_not_eq_true more)
      cases read.symm.trans good
  | case4 stream inside long skipped more next read =>
      rename_i ih
      obtain ⟨other, good, behind⟩ :=
        within.skipped.next rfl (Bool.eq_false_of_not_eq_true more)
      cases read.symm.trans good
      exact ih behind
  | case5 stream outside =>
      rw [not_or, Nat.not_lt, Nat.le_zero, Bool.not_eq_false] at outside
      obtain ⟨empty, last⟩ := outside
      obtain ⟨current, frags, left, lastFrag, cut, input, -⟩ := within
      have none_ : current = [] := List.length_eq_zero_iff.mp (left.symm.trans empty)
      have done : frags = [] := List.isEmpty_iff.mp (lastFrag.symm.trans last)
      subst none_ done
      rw [empty, input]
      rfl

/-- A stream that stands in front of a record is within it. -/
theorem within_front {frags : List (List UInt8)} (cut : Fragments frags) (some_ : frags ≠ [])
    (after : List UInt8) :
    Within after { left := 0, lastFrag := false, input := putRecord frags ++ after }
      frags.flatten :=
  ⟨[], frags, rfl, (List.isEmpty_eq_false_iff.mpr some_).symm, cut, rfl, rfl⟩

end RecordStream

end Foundation
