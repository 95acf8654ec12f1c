import Mathlib.Algebra.BigOperators.Group.List.Basic
import Mathlib.Algebra.Order.Group.Nat
import Mathlib.Algebra.Order.Ring.Int
import Mathlib.Data.List.Chain
import Ndmpd.Foundation.Transition

/-!
# Reading the archive from a remote mover

`ndmpd_remote_read_v3` asks the client for a window of the stream when the last one has
been read up to its end, and reads from the data connection as far as the window goes. The
first window takes up all offsets of 64 bits; what a later one takes up depends on how much
is left of the file that is being restored.

Along all calls the bytes taken from the stream and those left in the window are what has
been asked for (`Windowed`), so that each window begins where the one before it ends, and a
call that returns 0 has stored the bytes of the stream that come next
(`ndmpdRemoteReadV3_delivers`).
-/

namespace Ndmpd

namespace RemoteRead

/-- `MAX_RECORD_SIZE`. -/
abbrev maxRecordSize : Nat := 126 * 512

/-- The number of values of a `u_longlong_t`. -/
abbrev two64 : Nat := 2 ^ 64

/-- A `NOTIFY_DATA_READ` request, with how much was left in the window when it was made and
how many bytes had been taken from the stream. -/
structure WindowRequest where
  offset : Nat
  length : Nat
  left : Nat
  start : Nat
  deriving DecidableEq, Repr

/-- The fields of `ns_data` that the reader keeps, how many bytes it has taken from the data
connection, and the requests it has made. -/
structure DataReader where
  ddBytesLeftToRead : Nat
  ddPosition : Nat
  ddDiscardLength : Nat
  ddReadOffset : Nat
  ddReadLength : Nat
  taken : Nat
  requests : List WindowRequest
  deriving DecidableEq, Repr

/-- What a round of the loop meets: `js_bytes_in_file`, whether a request can be sent, and
how many bytes `read` has got, or what else it returns. -/
structure Round where
  jsBytesInFile : Int
  sent : Bool
  bytes : Int
  deriving DecidableEq, Repr

/-- What a call comes to: its result, where it has returned, the data it has stored, and the
reader. -/
structure ReadRun where
  rv : Option Int
  data : List UInt8
  reader : DataReader
  deriving DecidableEq, Repr

namespace DataReader

/-- `start_recover_v3`. -/
def reset : DataReader := ⟨0, 0, 0, 0, 0, 0, []⟩

variable (reader : DataReader)

/-- The size of the window that is asked for. `fsize < len` compares unsigned numbers. -/
def windowSize (jsBytesInFile : Int) (len : Nat) : Nat :=
  let fsize := (jsBytesInFile % two64).toNat
  if fsize < len then len else fsize

/-- A new window. -/
def openWindow (offset length : Nat) : DataReader :=
  { reader with
    ddBytesLeftToRead := length
    ddReadOffset := offset
    ddReadLength := length
    requests := reader.requests ++ [⟨offset, length, reader.ddBytesLeftToRead, reader.taken⟩] }

/-- The request at the end of a window. -/
def askForMore (jsBytesInFile : Int) (len : Nat) : DataReader :=
  -- `ndmpd_seek` never called
  if reader.ddReadLength = 0 then reader.openWindow 0 (two64 - 1)
  else reader.openWindow reader.ddPosition (windowSize jsBytesInFile len)

/-- `n` bytes of the window have been read. -/
def advance (n : Nat) : DataReader :=
  { reader with
    ddBytesLeftToRead := reader.ddBytesLeftToRead - n
    ddPosition := (reader.ddPosition + n) % two64
    taken := reader.taken + n }

/-- `n` bytes have been discarded. -/
def discard (n : Nat) : DataReader :=
  { reader with ddDiscardLength := reader.ddDiscardLength - n, taken := reader.taken + n }

end DataReader

variable (stream : Nat → UInt8)

/-- The loop of `ndmpd_remote_read_v3`. The rounds that are given may end before the call
returns. -/
def readLoop (length : Nat) : List Round → List UInt8 → DataReader → ReadRun
  | rounds, data, reader =>
      if length ≤ data.length then ⟨some 0, data, reader⟩
      else
        match rounds with
        | [] => ⟨none, data, reader⟩
        | round :: rounds =>
            let len := length - data.length
            let asks : Bool := reader.ddBytesLeftToRead = 0
            let reader := if asks then reader.askForMore round.jsBytesInFile len else reader
            if asks ∧ ¬ round.sent then ⟨some (-1), data, reader⟩
            else if reader.ddDiscardLength ≠ 0 then
              -- `discard_data_v3`
              if round.bytes < 0 then ⟨some (-1), data, reader⟩
              else
                readLoop length rounds data
                  (reader.discard
                    (min round.bytes.toNat (min reader.ddDiscardLength maxRecordSize)))
            else
              let len := min len reader.ddBytesLeftToRead
              if round.bytes ≤ 0 then ⟨some (-1), data, reader⟩
              else
                let n := min round.bytes.toNat len
                readLoop length rounds
                  (data ++ (List.range n).map fun index => stream (reader.taken + index))
                  (reader.advance n)

/-- `ndmpd_remote_read_v3`. -/
def ndmpdRemoteReadV3 (length : UInt64) (rounds : List Round) (reader : DataReader) : ReadRun :=
  readLoop stream length.toNat rounds [] reader

/-- A restore: calls of `ndmpd_remote_read_v3`, each of which returns. -/
def system : Foundation.System DataReader (UInt64 × List Round) where
  init reader := reader = .reset
  step reader call :=
    let run := ndmpdRemoteReadV3 stream call.1 call.2 reader
    run.rv.map fun _ => run.reader

/-! ## The windows -/

/-- How much of the stream has been asked for. -/
def DataReader.asked (reader : DataReader) : Nat := (reader.requests.map WindowRequest.length).sum

/-- What has been taken and what is left in the window is what has been asked for. -/
structure Windowed (reader : DataReader) : Prop where
  discard : reader.ddDiscardLength = 0
  position : reader.ddPosition = reader.taken % two64
  taken : reader.taken + reader.ddBytesLeftToRead = reader.asked
  unasked : reader.ddReadLength = 0 ↔ reader.requests = []
  window : ∀ request ∈ reader.requests.getLast?,
    reader.ddReadOffset = request.offset ∧ reader.ddReadLength = request.length
  inTurn : ∀ before request after, reader.requests = before ++ request :: after →
    request.left = 0 ∧ request.start = (before.map WindowRequest.length).sum ∧
      request.offset = request.start % two64

variable {stream} {reader : DataReader}

theorem windowed_reset : Windowed .reset where
  discard := rfl
  position := rfl
  taken := rfl
  unasked := iff_of_true rfl rfl
  window := nofun
  inTurn := by
    intro before request after split
    exact absurd split (List.append_ne_nil_of_right_ne_nil _ (List.cons_ne_nil _ _)).symm

/-- A new window is asked for where the last one ends. -/
theorem Windowed.openWindow (windowed : Windowed reader) (empty : reader.ddBytesLeftToRead = 0)
    {offset length : Nat} (here : offset = reader.taken % two64) (some_ : length ≠ 0) :
    Windowed (reader.openWindow offset length) where
  discard := windowed.discard
  position := windowed.position
  taken := by
    have before := windowed.taken
    rw [empty] at before
    change reader.taken + length =
      ((reader.requests ++ [_]).map WindowRequest.length).sum
    rw [List.map_append, List.sum_append, ← DataReader.asked, ← before]
    rfl
  unasked := iff_of_false some_ (List.append_ne_nil_of_right_ne_nil _ (List.cons_ne_nil _ _))
  window := by
    intro request isLast
    rw [DataReader.openWindow, List.getLast?_concat] at isLast
    cases isLast
    exact ⟨rfl, rfl⟩
  inTurn := by
    intro before request after split
    change reader.requests ++ [_] = before ++ request :: after at split
    rcases List.eq_nil_or_concat after with rfl | ⟨others, last, rfl⟩
    · obtain ⟨same, isLast⟩ := List.append_inj' split rfl
      cases List.singleton_injective isLast
      have all := windowed.taken
      rw [empty, DataReader.asked, same] at all
      exact ⟨empty, all, here⟩
    · rw [List.concat_eq_append, ← List.cons_append, ← List.append_assoc] at split
      obtain ⟨same, -⟩ := List.append_inj' split rfl
      exact windowed.inTurn before request others same

theorem windowSize_ge (jsBytesInFile : Int) (len : Nat) :
    len ≤ DataReader.windowSize jsBytesInFile len := by
  unfold DataReader.windowSize
  dsimp only
  split
  · exact le_rfl
  · exact Nat.not_lt.mp ‹_›

/-- The request at the end of a window. -/
theorem Windowed.askForMore (windowed : Windowed reader) (empty : reader.ddBytesLeftToRead = 0)
    (jsBytesInFile : Int) {len : Nat} (some_ : 0 < len) :
    Windowed (reader.askForMore jsBytesInFile len) ∧
      0 < (reader.askForMore jsBytesInFile len).ddBytesLeftToRead ∧
        (reader.askForMore jsBytesInFile len).taken = reader.taken := by
  unfold DataReader.askForMore
  by_cases first : reader.ddReadLength = 0
  · rw [if_pos first]
    have none_ := windowed.taken
    rw [DataReader.asked, windowed.unasked.mp first, empty] at none_
    refine ⟨windowed.openWindow empty ?_ (by decide), (by decide : 0 < two64 - 1), rfl⟩
    rw [show reader.taken = 0 from none_, Nat.zero_mod]
  · rw [if_neg first]
    have enough := windowSize_ge jsBytesInFile len
    exact ⟨windowed.openWindow empty windowed.position (by omega), by
      change 0 < DataReader.windowSize jsBytesInFile len
      omega, rfl⟩

/-- Bytes of the window are read. -/
theorem Windowed.advance (windowed : Windowed reader) {n : Nat}
    (within : n ≤ reader.ddBytesLeftToRead) : Windowed (reader.advance n) where
  discard := windowed.discard
  position := by
    have position := windowed.position
    change (reader.ddPosition + n) % two64 = (reader.taken + n) % two64
    rw [position, Nat.mod_add_mod]
  taken := by
    have taken := windowed.taken
    change reader.taken + n + (reader.ddBytesLeftToRead - n) = reader.asked
    omega
  unasked := windowed.unasked
  window := windowed.window
  inTurn := windowed.inTurn

/-- One round: it fails, or takes bytes of the window and goes on. -/
theorem readLoop_cons (windowed : Windowed reader) {length : Nat} {data : List UInt8}
    (more : data.length < length) (round : Round) (rounds : List Round) :
    ∃ ready, Windowed ready ∧ ready.taken = reader.taken ∧
      (readLoop stream length (round :: rounds) data reader = ⟨some (-1), data, ready⟩ ∧
          ¬ (round.sent = true ∧ 0 < round.bytes) ∨
        ∃ n, 0 < n ∧ n ≤ length - data.length ∧ Windowed (ready.advance n) ∧
          readLoop stream length (round :: rounds) data reader =
            readLoop stream length rounds
              (data ++ (List.range n).map fun index => stream (ready.taken + index))
              (ready.advance n)) := by
  have some_ : 0 < length - data.length := Nat.sub_pos_of_lt more
  obtain ⟨ready, isReady, kept, left, taken⟩ : ∃ ready,
      (if decide (reader.ddBytesLeftToRead = 0) = true then
        reader.askForMore round.jsBytesInFile (length - data.length) else reader) = ready ∧
        Windowed ready ∧ 0 < ready.ddBytesLeftToRead ∧ ready.taken = reader.taken := by
    by_cases empty : reader.ddBytesLeftToRead = 0
    · rw [if_pos (decide_eq_true empty)]
      exact ⟨_, rfl, windowed.askForMore empty round.jsBytesInFile some_⟩
    · rw [if_neg (by simpa using empty)]
      exact ⟨reader, rfl, windowed, Nat.pos_of_ne_zero empty, rfl⟩
  refine ⟨ready, kept, taken, ?_⟩
  rw [readLoop, if_neg (Nat.not_le.mpr more)]
  dsimp only
  rw [isReady]
  by_cases unsent : decide (reader.ddBytesLeftToRead = 0) = true ∧ ¬ round.sent = true
  · rw [if_pos unsent]
    exact Or.inl ⟨rfl, fun both => unsent.2 both.1⟩
  · rw [if_neg unsent, if_neg (not_not.mpr kept.discard)]
    by_cases closed : round.bytes ≤ 0
    · rw [if_pos closed]
      exact Or.inl ⟨rfl, fun both => absurd both.2 (Int.not_lt.mpr closed)⟩
    · rw [if_neg closed]
      refine Or.inr ⟨_, ?_, ?_, kept.advance ?_, rfl⟩
      · omega
      · omega
      · omega

/-- The loop, from any round on. -/
theorem readLoop_windowed (length : Nat) (rounds : List Round) (data : List UInt8)
    (windowed : Windowed reader) :
    Windowed (readLoop stream length rounds data reader).reader := by
  induction rounds generalizing data reader with
  | nil =>
      unfold readLoop
      by_cases done : length ≤ data.length
      · rw [if_pos done]
        exact windowed
      · rw [if_neg done]
        exact windowed
  | cons round rounds ih =>
      by_cases done : length ≤ data.length
      · unfold readLoop
        rw [if_pos done]
        exact windowed
      · obtain ⟨ready, kept, -, failed | ⟨n, -, -, onward, rest⟩⟩ :=
          readLoop_cons windowed (Nat.not_le.mp done) round rounds
        · rw [failed.1]
          exact kept
        · rw [rest]
          exact ih _ onward

/-- What has been stored when the loop ends well. -/
theorem readLoop_delivers {length : Nat} (rounds : List Round) {data : List UInt8}
    (windowed : Windowed reader) (within : data.length ≤ length)
    (ends : (readLoop stream length rounds data reader).rv = some 0) :
    (readLoop stream length rounds data reader).data =
        data ++ (List.range (length - data.length)).map
          (fun index => stream (reader.taken + index)) ∧
      (readLoop stream length rounds data reader).reader.taken =
        reader.taken + (length - data.length) := by
  induction rounds generalizing data reader with
  | nil =>
      unfold readLoop at ends ⊢
      by_cases done : length ≤ data.length
      · rw [if_pos done, Nat.sub_eq_zero_of_le done]
        exact ⟨(List.append_nil data).symm, rfl⟩
      · rw [if_neg done] at ends
        cases ends
  | cons round rounds ih =>
      by_cases done : length ≤ data.length
      · unfold readLoop
        rw [if_pos done, Nat.sub_eq_zero_of_le done]
        exact ⟨(List.append_nil data).symm, rfl⟩
      · obtain ⟨ready, -, taken, failed | ⟨n, -, fits, onward, rest⟩⟩ :=
          readLoop_cons windowed (Nat.not_le.mp done) round rounds
        · rw [failed.1] at ends
          exact absurd (Option.some.inj ends) (by decide)
        · rw [rest] at ends ⊢
          have stored : (data ++ (List.range n).map fun index =>
              stream (ready.taken + index)).length = data.length + n := by
            rw [List.length_append, List.length_map, List.length_range]
          obtain ⟨bytes, cursor⟩ := ih onward (by omega) ends
          rw [bytes, cursor, stored]
          have all : length - data.length = n + (length - (data.length + n)) := by omega
          have further : (ready.advance n).taken = reader.taken + n := congrArg (· + n) taken
          rw [further, taken, all, List.range_add, List.map_append, List.map_map]
          constructor
          · simp only [List.append_assoc, Function.comp_def, Nat.add_assoc]
          · omega

/-- With requests that can be sent and reads that get something, the loop ends. -/
theorem readLoop_returns {length : Nat} (rounds : List Round) {data : List UInt8}
    (windowed : Windowed reader) (good : ∀ round ∈ rounds, round.sent = true ∧ 0 < round.bytes)
    (enough : length ≤ data.length + rounds.length) :
    (readLoop stream length rounds data reader).rv = some 0 := by
  induction rounds generalizing data reader with
  | nil =>
      unfold readLoop
      rw [if_pos (by simpa using enough)]
  | cons round rounds ih =>
      by_cases done : length ≤ data.length
      · unfold readLoop
        rw [if_pos done]
      · obtain ⟨ready, -, -, failed | ⟨n, some_, -, onward, rest⟩⟩ :=
          readLoop_cons windowed (Nat.not_le.mp done) round rounds
        · exact absurd (good round List.mem_cons_self) failed.2
        · rw [rest]
          apply ih onward fun other listed => good other (List.mem_cons_of_mem round listed)
          rw [List.length_append, List.length_map, List.length_range]
          rw [List.length_cons] at enough
          omega

theorem reachable_windowed (reached : (system stream).Reachable reader) : Windowed reader := by
  refine reached.invariant Windowed ?_ ?_
  · rintro _ rfl
    exact windowed_reset
  · intro reader call after windowed _ taken
    obtain ⟨rv, -, same⟩ := Option.map_eq_some_iff.mp taken
    rw [← same]
    exact readLoop_windowed _ _ _ windowed

/-! ## What the requests ask for -/

/-- The window ends where reading has got to and what is left of it says. Requests are made
at the end of a window only, and each one asks for what comes next: in offsets of 64 bits,
and of the stream itself. -/
structure Accounted (reader : DataReader) : Prop where
  ends : reader.requests ≠ [] → (reader.ddReadOffset + reader.ddReadLength) % two64 =
    (reader.ddPosition + reader.ddBytesLeftToRead) % two64
  exhausted : ∀ request ∈ reader.requests, request.left = 0
  adjacent : reader.requests.IsChain fun first second =>
    second.offset = (first.offset + first.length) % two64
  apart : reader.requests.Pairwise fun first second => first.start + first.length ≤ second.start
  placed : ∀ request ∈ reader.requests, request.offset = request.start % two64

/-- Each request is for what lies behind the one before it. -/
theorem Windowed.start_eq (windowed : Windowed reader) :
    reader.requests.IsChain fun first second => second.start = first.start + first.length := by
  rw [List.isChain_iff_forall_rel_of_append_cons_cons]
  intro first second before after split
  obtain ⟨-, start, -⟩ := windowed.inTurn before first (second :: after) split
  obtain ⟨-, next, -⟩ := windowed.inTurn (before ++ [first]) second after (by rw [split]; simp)
  rw [next, start, List.map_append, List.sum_append]
  rfl

theorem Windowed.accounted (windowed : Windowed reader) : Accounted reader := by
  have placed : ∀ request ∈ reader.requests, request.left = 0 ∧
      request.offset = request.start % two64 := by
    intro request listed
    obtain ⟨before, after, split⟩ := List.append_of_mem listed
    obtain ⟨left, -, offset⟩ := windowed.inTurn before request after split
    exact ⟨left, offset⟩
  refine ⟨fun asked => ?_, fun request listed => (placed request listed).1, ?_, ?_,
    fun request listed => (placed request listed).2⟩
  · obtain ⟨before, last, split⟩ := List.eq_nil_or_concat reader.requests |>.resolve_left asked
    rw [List.concat_eq_append] at split
    obtain ⟨-, start, offset⟩ := windowed.inTurn before last [] split
    obtain ⟨ddOffset, ddLength⟩ := windowed.window last (by rw [split, List.getLast?_concat]; rfl)
    have total := windowed.taken
    rw [DataReader.asked, split, List.map_append, List.sum_append, ← start] at total
    rw [ddOffset, ddLength, offset, windowed.position, Nat.mod_add_mod, Nat.mod_add_mod, total]
    rfl
  · refine windowed.start_eq.imp_of_mem_imp fun first second isFirst isSecond start => ?_
    rw [(placed first isFirst).2, (placed second isSecond).2, start, Nat.mod_add_mod]
  · have behind : reader.requests.IsChain fun first second =>
        first.start + first.length ≤ second.start :=
      windowed.start_eq.imp fun _ _ start => start.ge
    have onward : IsTrans WindowRequest fun first second =>
        first.start + first.length ≤ second.start :=
      ⟨fun _ second _ early late => (early.trans (Nat.le_add_right _ second.length)).trans late⟩
    exact behind.pairwise

/-- Whatever a call meets, the windows stay in turn; a call that returns 0 has stored the
next bytes of the stream. -/
theorem ndmpdRemoteReadV3_delivers (reached : (system stream).Reachable reader) (length : UInt64)
    (rounds : List Round) :
    Accounted (ndmpdRemoteReadV3 stream length rounds reader).reader ∧
      ((ndmpdRemoteReadV3 stream length rounds reader).rv = some 0 →
        (ndmpdRemoteReadV3 stream length rounds reader).data =
            (List.range length.toNat).map (fun index => stream (reader.taken + index)) ∧
          (ndmpdRemoteReadV3 stream length rounds reader).reader.taken =
            reader.taken + length.toNat ∧
          (ndmpdRemoteReadV3 stream length rounds reader).reader.ddPosition =
            (reader.ddPosition + length.toNat) % two64) ∧
      ((∀ round ∈ rounds, round.sent = true ∧ 0 < round.bytes) → length.toNat ≤ rounds.length →
        (ndmpdRemoteReadV3 stream length rounds reader).rv = some 0) := by
  have windowed := reachable_windowed reached
  have onward : Windowed (ndmpdRemoteReadV3 stream length rounds reader).reader :=
    readLoop_windowed _ _ _ windowed
  refine ⟨onward.accounted, fun ends => ?_, fun good enough => ?_⟩
  · obtain ⟨data, taken⟩ := readLoop_delivers rounds windowed (Nat.zero_le _) ends
    refine ⟨data, taken, ?_⟩
    rw [onward.position, windowed.position, Nat.mod_add_mod]
    exact congrArg (· % two64) taken
  · exact readLoop_returns rounds windowed good (by simpa using enough)

/-- A call that needs two reads, at the start of a restore. -/
theorem ndmpdRemoteReadV3_delivers_twoReads :
    let run := ndmpdRemoteReadV3 (fun _ => 7) 8 [⟨0, true, 5⟩, ⟨0, true, 9⟩] .reset
    Accounted run.reader ∧ run.rv = some 0 ∧ run.data = List.replicate 8 7 ∧
      run.reader.taken = 8 := by
  obtain ⟨accounted, delivers, -⟩ := @ndmpdRemoteReadV3_delivers (fun _ => 7) _ (.init rfl) 8
    [⟨0, true, 5⟩, ⟨0, true, 9⟩]
  obtain ⟨data, taken, -⟩ := delivers (by decide)
  exact ⟨accounted, by decide, data, taken⟩

end RemoteRead

end Ndmpd
