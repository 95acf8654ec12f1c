import Ndmpd.Foundation.Transition

/-!
# Aborting a backup that sends file history

The control thread holds `conn_lock` while it processes requests, also while the handler
of DATA_ABORT waits in `ndmp_stop_reader_thread` until the reader thread of the backup is
gone. The reader buffers file history and takes the same lock to send a full buffer. The
two wait for each other for ever when the reader comes to send while the control thread
waits for it (`deadlocked_stuck`).

This happens exactly when a buffer runs full during the wait, or when the wait begins while
the reader is at the lock; no other run deadlocks (`deadlocks_exactly`).
-/

namespace Ndmpd

namespace AbortWait

open Foundation.System

/-! ## File history buffers -/

abbrev nPathEntries : Nat := 1000
abbrev nFileEntries : Nat := nPathEntries
abbrev nDirEntries : Nat := 1000
abbrev nNodeEntries : Nat := 1000
abbrev pathNamebufSize : Nat := nPathEntries * 32
abbrev dirNamebufSize : Nat := nPathEntries * 16

/-- How far the buffers of `ns_fh_v3` are filled. -/
structure FileHistory where
  fhFileIndex : Nat
  fhFileNameBufIndex : Nat
  fhDirIndex : Nat
  fhDirNameBufIndex : Nat
  fhNodeIndex : Nat
  deriving DecidableEq, Repr

/-- A call of one of the `ndmpd_api_file_history` functions; a name by its length. -/
inductive HistoryEntry where
  | file (nameLength : Nat)
  | dir (nameLength : Nat)
  | node
  deriving DecidableEq, Repr

/-- The buffers, each sent as a message of its own. -/
inductive HistoryBuffer where
  | files
  | dirs
  | nodes
  deriving DecidableEq, Repr

namespace FileHistory

/-- The buffers that are sent to make room for an entry. With the nodes go the
directories, when there are any. -/
def flushes (history : FileHistory) : HistoryEntry → List HistoryBuffer
  | .file nameLength =>
      if history.fhFileIndex = nFileEntries ∨
          history.fhFileNameBufIndex + nameLength + 1 > pathNamebufSize then [.files]
      else []
  | .dir nameLength =>
      if history.fhDirIndex = nDirEntries ∨
          history.fhDirNameBufIndex + nameLength + 1 > dirNamebufSize then [.dirs]
      else []
  | .node =>
      if history.fhNodeIndex = nNodeEntries then
        if history.fhDirIndex = 0 then [.nodes] else [.dirs, .nodes]
      else []

/-- A buffer was sent. -/
def sent (history : FileHistory) : HistoryBuffer → FileHistory
  | .files => { history with fhFileIndex := 0, fhFileNameBufIndex := 0 }
  | .dirs => { history with fhDirIndex := 0, fhDirNameBufIndex := 0 }
  | .nodes => { history with fhNodeIndex := 0 }

/-- An entry is added. A directory entry takes the size of a path name buffer. -/
def add (history : FileHistory) : HistoryEntry → FileHistory
  | .file nameLength =>
      { history with
        fhFileIndex := history.fhFileIndex + 1
        fhFileNameBufIndex := history.fhFileNameBufIndex + nameLength + 1 }
  | .dir _ =>
      { history with
        fhDirIndex := history.fhDirIndex + 1
        fhDirNameBufIndex := history.fhDirNameBufIndex + pathNamebufSize }
  | .node => { history with fhNodeIndex := history.fhNodeIndex + 1 }

end FileHistory

/-! ## The two threads -/

/-- The threads that take `conn_lock`. -/
inductive Party where
  | control
  | reader
  deriving DecidableEq, Repr

/-- Where the control thread stands: in `select`, in `ndmp_process_messages` with the
lock, in `ndmpd_tar_backup_abort_v3`, or in the loop of `ndmp_stop_reader_thread`. -/
inductive ControlPhase where
  | idle
  | serving
  | aborting
  | waiting
  deriving DecidableEq, Repr

/-- Where the backup stands: none, started, with `dd_abort` looked at in `tar_backup_v3`;
then where its reader is: between two callbacks of the traversal, in one of them, at
`pthread_mutex_lock` of `ndmp_send_request_lock` or behind it with the buffers that are
still to be sent for an entry, or gone. -/
inductive ReaderPhase where
  | absent
  | started
  | cleared
  | between
  | inside
  | locking (first : HistoryBuffer) (more : List HistoryBuffer) (entry : HistoryEntry)
  | sending (first : HistoryBuffer) (more : List HistoryBuffer) (entry : HistoryEntry)
  | gone
  deriving DecidableEq, Repr

structure Threads where
  control : ControlPhase
  reader : ReaderPhase
  connLock : Option Party
  history : FileHistory
  /-- `tcs_command`, from `backup_alloc_structs_v3` to `free_structs_v3`. -/
  command : Bool
  ddAbort : Bool
  /-- `tcs_reader` is `TLM_ABORT`. -/
  tcsReaderAbort : Bool
  tcsReaderCount : Nat
  deriving DecidableEq, Repr

/-- What the threads do next. -/
inductive Action where
  -- the starter of the backup
  | checkAbort
  | allocStructs
  | startReader
  | freeStructs
  -- the control thread
  | lock
  | startBackup
  | abort
  | stopReader
  | poll
  | unlock
  -- the reader
  | callback
  | entry (entry : HistoryEntry)
  | acquire
  | sendDone (succeeded : Bool)
  | callbackDone
  | finish
  deriving DecidableEq, Repr

namespace Threads

/-- The reader goes on after a buffer was sent, or could not be. A failure to send the
directories before the nodes is ignored. -/
def afterSend (threads : Threads) (first : HistoryBuffer) (more : List HistoryBuffer)
    (entry : HistoryEntry) (succeeded : Bool) : Threads :=
  let history := if succeeded then threads.history.sent first else threads.history
  match more with
  | next :: more =>
      { threads with connLock := none, history := history, reader := .locking next more entry }
  | [] =>
      { threads with
        connLock := none
        history := if succeeded then history.add entry else history
        reader := .inside }

/-- One step. -/
def step (threads : Threads) : Action → Option Threads
  | .checkAbort =>
      if threads.reader = .started then
        some { threads with reader := if threads.ddAbort then .gone else .cleared }
      else none
  | .allocStructs =>
      if threads.reader = .cleared ∧ ¬ threads.command then some { threads with command := true }
      else none
  | .startReader =>
      if threads.reader = .cleared ∧ threads.command then
        some { threads with
          reader := .between, tcsReaderAbort := false,
          tcsReaderCount := threads.tcsReaderCount + 1 }
      else none
  | .freeStructs =>
      if threads.reader = .gone then some { threads with command := false, reader := .absent }
      else none
  | .lock =>
      if threads.control = .idle ∧ threads.connLock = none then
        some { threads with control := .serving, connLock := some .control }
      else none
  -- the buffers were prepared when the operation before was stopped
  | .startBackup =>
      if threads.control = .serving ∧ threads.reader = .absent then
        some { threads with reader := .started, history := ⟨0, 0, 0, 0, 0⟩, ddAbort := false }
      else none
  -- `ndmpd_data_abort_v3` on an active operation
  | .abort =>
      if threads.control = .serving then
        some { threads with control := .aborting, ddAbort := true }
      else none
  | .stopReader =>
      if threads.control = .aborting then
        if threads.command then some { threads with control := .waiting, tcsReaderAbort := true }
        else some { threads with control := .serving }
      else none
  | .poll =>
      if threads.control = .waiting ∧ threads.tcsReaderCount = 0 then
        some { threads with control := .serving }
      else none
  | .unlock =>
      if threads.control = .serving then
        some { threads with control := .idle, connLock := none }
      else none
  -- `check_bk_args` ends the callback of an aborted backup at once
  | .callback =>
      if threads.reader = .between ∧ ¬ threads.ddAbort then
        some { threads with reader := .inside }
      else none
  | .entry entry =>
      if threads.reader = .inside then
        match threads.history.flushes entry with
        | [] => some { threads with history := threads.history.add entry }
        | first :: more => some { threads with reader := .locking first more entry }
      else none
  | .acquire =>
      match threads.reader, threads.connLock with
      | .locking first more entry, none =>
          some { threads with reader := .sending first more entry, connLock := some .reader }
      | _, _ => none
  | .sendDone succeeded =>
      match threads.reader with
      | .sending first more entry => some (threads.afterSend first more entry succeeded)
      | _ => none
  | .callbackDone =>
      if threads.reader = .inside then some { threads with reader := .between } else none
  | .finish =>
      if threads.reader = .between then
        some { threads with reader := .gone, tcsReaderCount := threads.tcsReaderCount - 1 }
      else none

end Threads

/-- The threads of a new session. -/
def newSession : Threads :=
  ⟨.idle, .absent, none, ⟨0, 0, 0, 0, 0⟩, false, false, false, 0⟩

/-- The two threads of a session. -/
def sessionThreads : Foundation.System Threads Action where
  init threads := threads = newSession
  step threads action := threads.step action

namespace ReaderPhase

/-- The reader is at `pthread_mutex_lock`. -/
def atLock : ReaderPhase → Bool
  | .locking _ _ _ => true
  | _ => false

/-- The reader holds `conn_lock`. -/
def inSend : ReaderPhase → Bool
  | .sending _ _ _ => true
  | _ => false

/-- The reader thread is counted in `tcs_reader_count`. -/
def counted : ReaderPhase → Bool
  | .absent | .started | .cleared | .gone => false
  | .between | .inside | .locking _ _ _ | .sending _ _ _ => true

end ReaderPhase

/-- The control thread waits for the reader, and the reader for `conn_lock`. -/
def Deadlocked (threads : Threads) : Prop :=
  threads.control = .waiting ∧ threads.reader.atLock = true

/-- No history buffer runs full while the control thread waits for the reader, and it does
not begin to wait while the reader is at the lock. -/
def Quiet (threads : Threads) : Action → Prop
  | .entry entry => threads.control = .waiting → threads.history.flushes entry = []
  | .stopReader => threads.command = true → threads.reader.atLock = false
  | _ => True

instance (threads : Threads) : ∀ action, Decidable (Quiet threads action)
  | .entry entry =>
      inferInstanceAs (Decidable (threads.control = .waiting → threads.history.flushes entry = []))
  | .stopReader =>
      inferInstanceAs (Decidable (threads.command = true → threads.reader.atLock = false))
  | .checkAbort | .allocStructs | .startReader | .freeStructs | .lock | .startBackup | .abort
  | .poll | .unlock | .callback | .acquire | .sendDone _ | .callbackDone | .finish =>
      inferInstanceAs (Decidable True)

/-! ## Who holds the lock -/

/-- The lock is held by the thread whose phase says so, and the count of the readers by
the phase of the reader. -/
structure Consistent (threads : Threads) : Prop where
  control : threads.connLock = some .control ↔ threads.control ≠ .idle
  reader : threads.connLock = some .reader ↔ threads.reader.inSend = true
  count : threads.tcsReaderCount = if threads.reader.counted then 1 else 0

section Steps

variable {threads next : Threads}

/-- A thread that takes the lock finds it free; the other one does not hold it. -/
theorem Consistent.step (consistent : Consistent threads) {action : Action}
    (taken : threads.step action = some next) : Consistent next := by
  obtain ⟨control, reader, count⟩ := consistent
  cases action with
  | checkAbort =>
      obtain ⟨started, rfl⟩ := of_guarded taken
      rw [started] at reader count
      refine ⟨control, ?_, ?_⟩ <;> cases threads.ddAbort
      · exact reader
      · exact reader
      · exact count
      · exact count
  | allocStructs =>
      obtain ⟨_, rfl⟩ := of_guarded taken
      exact ⟨control, reader, count⟩
  | startReader =>
      obtain ⟨⟨cleared, _⟩, rfl⟩ := of_guarded taken
      rw [cleared] at reader count
      exact ⟨control, reader, congrArg (· + 1) count⟩
  | freeStructs =>
      obtain ⟨gone, rfl⟩ := of_guarded taken
      rw [gone] at reader count
      exact ⟨control, reader, count⟩
  | lock =>
      obtain ⟨⟨idle, free⟩, rfl⟩ := of_guarded taken
      have outside : threads.reader.inSend ≠ true := fun inside => by
        cases free.symm.trans (reader.mpr inside)
      refine ⟨iff_of_true rfl nofun, iff_of_false nofun outside, count⟩
  | startBackup =>
      obtain ⟨⟨_, absent⟩, rfl⟩ := of_guarded taken
      rw [absent] at reader count
      exact ⟨control, reader, count⟩
  | abort =>
      obtain ⟨serving, rfl⟩ := of_guarded taken
      rw [serving] at control
      exact ⟨control.trans (iff_of_true nofun nofun), reader, count⟩
  | stopReader =>
      obtain ⟨aborting, taken⟩ := Option.ite_none_right_eq_some.mp taken
      rw [aborting] at control
      split at taken <;> cases taken
      · exact ⟨control.trans (iff_of_true nofun nofun), reader, count⟩
      · exact ⟨control.trans (iff_of_true nofun nofun), reader, count⟩
  | poll =>
      obtain ⟨⟨waiting, _⟩, rfl⟩ := of_guarded taken
      rw [waiting] at control
      exact ⟨control.trans (iff_of_true nofun nofun), reader, count⟩
  | unlock =>
      obtain ⟨serving, rfl⟩ := of_guarded taken
      have held : threads.connLock = some .control := control.mpr (by rw [serving]; nofun)
      have outside : threads.reader.inSend ≠ true := fun inside => by
        cases held.symm.trans (reader.mpr inside)
      exact ⟨iff_of_false nofun fun busy => busy rfl, iff_of_false nofun outside, count⟩
  | callback =>
      obtain ⟨⟨between, _⟩, rfl⟩ := of_guarded taken
      rw [between] at reader count
      exact ⟨control, reader, count⟩
  | entry entry =>
      obtain ⟨inside, taken⟩ := Option.ite_none_right_eq_some.mp taken
      split at taken <;> cases taken
      · exact ⟨control, reader, count⟩
      · rw [inside] at reader count
        exact ⟨control, reader, count⟩
  | acquire =>
      simp only [Threads.step] at taken
      split at taken <;> cases taken
      rename_i locking free
      rw [locking] at count
      rw [free] at control
      exact ⟨⟨nofun, fun busy => nomatch control.mpr busy⟩, iff_of_true rfl rfl, count⟩
  | sendDone succeeded =>
      simp only [Threads.step] at taken
      split at taken <;> cases taken
      rename_i first more entry sending
      rw [sending] at reader count
      have idle : ¬ threads.control ≠ .idle := fun busy => by
        cases (control.mpr busy).symm.trans (reader.mpr rfl)
      cases more with
      | nil => exact ⟨iff_of_false nofun idle, iff_of_false nofun nofun, count⟩
      | cons later more => exact ⟨iff_of_false nofun idle, iff_of_false nofun nofun, count⟩
  | callbackDone =>
      obtain ⟨inside, rfl⟩ := of_guarded taken
      rw [inside] at reader count
      exact ⟨control, reader, count⟩
  | finish =>
      obtain ⟨between, rfl⟩ := of_guarded taken
      rw [between] at reader count
      exact ⟨control, reader, congrArg (· - 1) count⟩

/-- A step of the threads into the wait cycle is one that is not quiet. -/
theorem deadlocked_iff (consistent : Consistent threads) (apart : ¬ Deadlocked threads)
    {action : Action} (taken : threads.step action = some next) :
    Deadlocked next ↔ ¬ Quiet threads action := by
  cases action with
  | entry entry =>
      obtain ⟨inside, taken⟩ := Option.ite_none_right_eq_some.mp taken
      split at taken <;> cases taken
      · rename_i room
        exact iff_of_false (fun stuck => by cases inside ▸ stuck.2) fun loud => loud fun _ => room
      · rename_i first more full
        constructor
        · intro stuck quiet
          cases full.symm.trans (quiet stuck.1)
        · intro loud
          refine ⟨not_not.mp fun other => loud fun waiting => absurd waiting other, rfl⟩
  | stopReader =>
      obtain ⟨aborting, taken⟩ := Option.ite_none_right_eq_some.mp taken
      split at taken <;> cases taken
      · rename_i command
        constructor
        · intro stuck quiet
          cases (quiet command).symm.trans stuck.2
        · intro loud
          exact ⟨rfl, Bool.not_eq_false _ ▸ fun free => loud fun _ => free⟩
      · rename_i command
        exact iff_of_false (fun stuck => nomatch stuck.1) fun loud =>
          loud fun present => absurd present command
  | lock | abort | poll | unlock =>
      obtain ⟨_, rfl⟩ := of_guarded taken
      exact iff_of_false (fun stuck => nomatch stuck.1) (not_not.mpr trivial)
  | startBackup | startReader | freeStructs | callback | callbackDone | finish =>
      obtain ⟨_, rfl⟩ := of_guarded taken
      exact iff_of_false (fun stuck => nomatch stuck.2) (not_not.mpr trivial)
  | allocStructs =>
      obtain ⟨_, rfl⟩ := of_guarded taken
      exact iff_of_false apart (not_not.mpr trivial)
  | checkAbort =>
      obtain ⟨_, rfl⟩ := of_guarded taken
      refine iff_of_false (fun stuck => ?_) (not_not.mpr trivial)
      cases aborted : threads.ddAbort <;> cases aborted ▸ stuck.2
  | acquire =>
      simp only [Threads.step] at taken
      split at taken <;> cases taken
      exact iff_of_false (fun stuck => nomatch stuck.2) (not_not.mpr trivial)
  | sendDone succeeded =>
      -- the reader held the lock, so the control thread is in `select`
      simp only [Threads.step] at taken
      split at taken <;> cases taken
      rename_i first more entry sending
      refine iff_of_false (fun stuck => ?_) (not_not.mpr trivial)
      have waiting : threads.control = .waiting := by
        cases more with
        | nil => exact stuck.1
        | cons later more => exact stuck.1
      have held := consistent.reader.mpr (by rw [sending]; rfl)
      cases held.symm.trans (consistent.control.mpr (by rw [waiting]; nofun))

/-- Nothing ends the wait cycle. -/
theorem Consistent.stuck (consistent : Consistent threads) (stuck : Deadlocked threads)
    (action : Action) : threads.step action = none := by
  obtain ⟨waiting, locking⟩ := stuck
  have held := consistent.control.mpr (by rw [waiting]; nofun)
  have counted := consistent.count
  match atLock : threads.reader, locking with
  | .locking first more entry, _ =>
      rw [atLock] at counted
      cases action <;> simp [Threads.step, waiting, held, atLock, counted, ReaderPhase.counted]

end Steps

theorem consistent_of_reachable {allowed : Threads → Action → Prop} {threads : Threads}
    (reached : sessionThreads.ReachableBy allowed threads) : Consistent threads := by
  apply reached.invariant Consistent
  · rintro threads rfl
    exact ⟨iff_of_false nofun fun busy => busy rfl, iff_of_false nofun nofun, rfl⟩
  · intro threads action next consistent _ taken
    exact consistent.step taken

/-- A run whose steps are all quiet is never deadlocked. -/
theorem not_deadlocked {threads : Threads} (reached : sessionThreads.ReachableBy Quiet threads) :
    ¬ Deadlocked threads := by
  induction reached with
  | init start =>
      cases start
      exact fun stuck => nomatch stuck.1
  | step before quiet taken apart =>
      rw [deadlocked_iff (consistent_of_reachable before) apart taken]
      exact not_not.mpr quiet

/-- A deadlocked session stays so: no step is left to either thread. -/
theorem deadlocked_stuck {threads : Threads} (reached : sessionThreads.Reachable threads)
    (stuck : Deadlocked threads) (action : Action) : sessionThreads.step threads action = none :=
  (consistent_of_reachable reached).stuck stuck action

/-- The control thread and the reader wait for each other in no state of a run in which no
buffer runs full during the wait and the wait does not begin at the lock, and the first
step that is not of this kind makes them. -/
theorem deadlocks_exactly {threads : Threads}
    (reached : sessionThreads.ReachableBy Quiet threads) :
    ¬ Deadlocked threads ∧
      ∀ action next, sessionThreads.step threads action = some next →
        (Deadlocked next ↔ ¬ Quiet threads action) := by
  refine ⟨not_deadlocked reached, fun action next taken => ?_⟩
  exact deadlocked_iff (consistent_of_reachable reached) (not_deadlocked reached) taken

/-- A backup that is aborted while its reader logs the entries of the root directory. The
second entry finds no room, and the first is sent before the abort. -/
def abortedRun : List Action :=
  [.lock, .startBackup, .unlock, .checkAbort, .allocStructs, .startReader, .callback,
    .entry (.dir 1), .entry (.dir 2), .acquire, .sendDone true, .lock, .abort, .stopReader,
    .callbackDone, .finish, .poll, .unlock, .freeStructs]

theorem deadlocks_exactly_abortedRun :
    ∃ ended, sessionThreads.run Quiet newSession abortedRun = some ended ∧
      ended.ddAbort = true ∧ ¬ Deadlocked ended ∧
      ∀ action next, sessionThreads.step ended action = some next →
        (Deadlocked next ↔ ¬ Quiet ended action) := by
  have finished : ∃ ended, sessionThreads.run Quiet newSession abortedRun = some ended ∧
      ended.ddAbort = true := ⟨_, rfl, rfl⟩
  obtain ⟨ended, ran, aborted⟩ := finished
  exact ⟨ended, ran, aborted, deadlocks_exactly (ReachableBy.run (.init rfl) ran)⟩

/-- The second directory entry of a backup comes to the lock while the control thread waits
for the reader. -/
theorem abort_deadlocks :
    ¬ ∀ threads, sessionThreads.Reachable threads → ¬ Deadlocked threads := by
  intro never
  have run : ∃ ended, sessionThreads.run (fun _ _ => True) newSession
      [.lock, .startBackup, .unlock, .checkAbort, .allocStructs, .startReader, .callback,
        .entry (.dir 1), .lock, .abort, .stopReader, .entry (.dir 2)] = some ended ∧
      Deadlocked ended := ⟨_, rfl, rfl, rfl⟩
  obtain ⟨ended, ran, stuck⟩ := run
  exact never ended (ReachableBy.run (.init rfl) ran) stuck

end AbortWait

end Ndmpd
