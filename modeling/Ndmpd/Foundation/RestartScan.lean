import Mathlib.Data.List.Perm.Basic

/-!
# Dispatching to a list of handlers that the handlers change

A dispatcher has tokens to hand out, each of which a handler may want. It goes through the
list of handlers, calls the first one that wants some of the tokens with all that it wants,
and starts over with the list as the call has left it. Whatever the calls do to the list, the
scan ends, each token is handed out at most once (`scan_delivered`), every handler that is
called is registered at that moment (`scan_calls`), and no registered handler wants one of
the tokens that are left (`scan_quiet`).
-/

namespace Foundation

universe u v w

/-- The handlers of a state, which tokens they want, and what a call of one comes to, where
it returns. -/
structure Dispatcher (State : Type u) (Handler : Type v) (Token : Type w) where
  handlers : State → List Handler
  wants : Handler → Token → Bool
  call : State → Handler → List Token → Option State

namespace Dispatcher

variable {State : Type u} {Handler : Type v} {Token : Type w}

/-- The calls that were made, the state behind them and the tokens that nobody wanted. -/
structure Scan (State : Type u) (Handler : Type v) (Token : Type w) where
  calls : List (Handler × List Token)
  state : State
  left : List Token

variable (d : Dispatcher State Handler Token)

/-- The tokens that a handler wants, and the others. -/
def taken (handler : Handler) (tokens : List Token) : List Token := tokens.filter (d.wants handler)

def others (handler : Handler) (tokens : List Token) : List Token :=
  tokens.filter fun token => !d.wants handler token

variable {d} in
theorem taken_others_perm (handler : Handler) (tokens : List Token) :
    (d.taken handler tokens ++ d.others handler tokens).Perm tokens :=
  List.filter_append_perm _ _

variable {d} in
theorem length_others_lt {handler : Handler} {tokens : List Token}
    (some_ : d.taken handler tokens ≠ []) : (d.others handler tokens).length < tokens.length := by
  have length := (d.taken_others_perm handler tokens).length_eq
  have positive := List.length_pos_iff.mpr some_
  rw [List.length_append] at length
  omega

/-- Go through the list up to a handler that wants some of the tokens, call it, and start
over: the list may have changed. -/
def scan (state : State) (tokens : List Token) : Option (Scan State Handler Token) :=
  match _found : (d.handlers state).find? fun handler => !(d.taken handler tokens).isEmpty with
  | none => some ⟨[], state, tokens⟩
  | some handler =>
      match d.call state handler (d.taken handler tokens) with
      | none => none
      | some next =>
          (scan next (d.others handler tokens)).map fun later =>
            { later with calls := (handler, d.taken handler tokens) :: later.calls }
termination_by tokens.length
decreasing_by exact length_others_lt (by simpa using List.find?_some _found)

/-- The calls lead from one state to another; each handler is registered when it is called,
with tokens that it wants. -/
inductive Calls : State → List (Handler × List Token) → State → Prop where
  | nil (state : State) : Calls state [] state
  | cons {state next last : State} {handler : Handler} {tokens : List Token}
      {calls : List (Handler × List Token)} :
      handler ∈ d.handlers state → tokens ≠ [] → (∀ token ∈ tokens, d.wants handler token = true) →
        d.call state handler tokens = some next → Calls next calls last →
          Calls state ((handler, tokens) :: calls) last

variable {d} {state : State} {tokens : List Token}
  {done : Scan State Handler Token}

/-- What every call of a registered handler keeps holds behind the calls. -/
theorem Calls.invariant {inv : State → Prop} {last : State} {calls : List (Handler × List Token)}
    (led : d.Calls state calls last)
    (kept : ∀ s handler tokens t, inv s → handler ∈ d.handlers s →
      (∀ token ∈ tokens, d.wants handler token = true) → tokens ≠ [] →
        d.call s handler tokens = some t → inv t)
    (holds : inv state) : inv last := by
  induction led with
  | nil _ => exact holds
  | cons registered some_ wanted called _ ih =>
      exact ih (kept _ _ _ _ holds registered wanted some_ called)

/-- Calls split at each of them: those in front of it lead to the state in which it is made,
and those behind it go on from the state that it leaves. -/
theorem Calls.split {last : State} {earlier later : List (Handler × List Token)}
    {handler : Handler} {tokens : List Token}
    (led : d.Calls state (earlier ++ (handler, tokens) :: later) last) :
    ∃ before after, d.Calls state earlier before ∧ handler ∈ d.handlers before ∧
      d.call before handler tokens = some after ∧ d.Calls after later last := by
  induction earlier generalizing state with
  | nil =>
      cases led with
      | cons registered _ _ called rest =>
          exact ⟨state, _, .nil state, registered, called, rest⟩
  | cons made earlier ih =>
      cases led with
      | cons registered some_ wanted called rest =>
          obtain ⟨before, after, first, there, calledThere, onward⟩ := ih rest
          exact ⟨before, after, .cons registered some_ wanted called first, there, calledThere,
            onward⟩

/-- A handler that is called is registered. -/
theorem scan_calls (scanned : d.scan state tokens = some done) :
    d.Calls state done.calls done.state := by
  fun_induction scan d state tokens generalizing done with
  | case1 =>
      cases scanned
      exact .nil _
  | case2 => cases scanned
  | case3 state tokens handler found next called ih =>
      obtain ⟨later, led, rfl⟩ := Option.map_eq_some_iff.mp scanned
      have some_ : d.taken handler tokens ≠ [] := by simpa using List.find?_some found
      refine .cons (List.mem_of_find?_eq_some found) some_ ?_ called (ih led)
      exact fun token mem => (List.mem_filter.mp mem).2

/-- Each token is handed out once, or it is left. -/
theorem scan_delivered (scanned : d.scan state tokens = some done) :
    (done.calls.flatMap Prod.snd ++ done.left).Perm tokens := by
  fun_induction scan d state tokens generalizing done with
  | case1 =>
      cases scanned
      exact .refl _
  | case2 => cases scanned
  | case3 state tokens handler found next called ih =>
      obtain ⟨later, led, rfl⟩ := Option.map_eq_some_iff.mp scanned
      rw [List.flatMap_cons, List.append_assoc]
      exact ((ih led).append_left _).trans (taken_others_perm handler tokens)

/-- No handler wants one of the tokens that are left. -/
theorem scan_quiet (scanned : d.scan state tokens = some done) :
    ∀ handler ∈ d.handlers done.state, d.taken handler done.left = [] := by
  fun_induction scan d state tokens generalizing done with
  | case1 state tokens none_ =>
      cases scanned
      simpa using none_
  | case2 => cases scanned
  | case3 state tokens handler found next called ih =>
      obtain ⟨later, led, rfl⟩ := Option.map_eq_some_iff.mp scanned
      have quiet := ih led
      exact quiet

end Dispatcher

end Foundation
