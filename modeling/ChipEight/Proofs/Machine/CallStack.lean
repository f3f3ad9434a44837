import ChipEight.Proofs.Machine.History
import Mathlib.Data.List.Induction

/-!
# Calls and returns

What each operation does to the call stack, as one case analysis. From it: the stack is
never higher than its limit, its height counts the calls and returns since the program was
loaded, and a return that is the first to come down to the height of its call finds what
that call left.
-/

set_option autoImplicit false

namespace ChipEight

/-- Whether an operation with this reply has loaded a program. -/
def Operation.loaded (operation : Operation) (reply : Reply) : Bool :=
  operation.loads && decide (reply = .done)

namespace Reply

def calls : Reply → Bool
  | .executed (.call _) => true
  | _ => false

def returns : Reply → Bool
  | .executed .ret => true
  | _ => false

end Reply

/-- The replies since a program was last loaded, the newest first. -/
def repliesSinceLoad (history : List (Operation × Reply)) : List Reply :=
  (history.reverse.takeWhile fun entry => !entry.1.loaded entry.2).map Prod.snd

/-- What an operation with its reply does to the call stack. -/
inductive StackMove (before : Machine) (operation : Operation) (reply : Reply)
    (after : Machine) : Prop where
  | cleared (loaded : operation.loaded reply = true) (empty : after.stack = [])
  | pushed (target : Address) (called : reply = .executed (.call target))
      (room : before.stack.length < callDepthLimit)
      (grown : after.stack = (before.counter + 2) :: before.stack)
  | popped (returned : reply = .executed .ret)
      (shrunk : before.stack = after.counter :: after.stack)
  | kept (notLoaded : operation.loaded reply = false) (notCalled : reply.calls = false)
      (notReturned : reply.returns = false) (same : after.stack = before.stack)

namespace Machine

theorem stackMove_step (machine : Machine) (now period : UInt64) :
    StackMove machine (.step now period) (.ofStep (machine.step now period).1)
      (machine.step now period).2 := by
  rcases machine.step_cases now period with
    ⟨-, refused⟩ | ⟨-, fault, -, failed⟩ | ⟨-, instruction, -, clear, executed⟩
  · rw [refused]
    exact .kept rfl rfl rfl rfl
  · rw [failed, ready_eq]
    exact .kept rfl rfl rfl rfl
  · rw [executed]
    have stack := (framed_execute (machine.ready now period) instruction).stack
    rw [ready_eq] at stack clear ⊢
    cases instruction with
    | call target =>
        refine .pushed target rfl ?_ stack
        simp only [obstacle?] at clear
        split at clear
        case isTrue room => exact room
        case isFalse => cases clear
    | ret =>
        cases entries : machine.stack with
        | nil => simp [obstacle?, entries] at clear
        | cons back older =>
            refine .popped rfl ?_
            simp only [execute, entries]
    | _ => exact .kept rfl rfl rfl stack

theorem stackMove_install (machine : Machine) {operation : Operation}
    (loads : operation.loads = true) (outcome : Except Fault Unit × ProgramMemory) :
    StackMove machine operation (.ofOutcome (machine.install outcome).1)
      (machine.install outcome).2 := by
  obtain ⟨result, memory⟩ := outcome
  cases result with
  | ok done => exact .cleared (by rw [Operation.loaded, loads]; rfl) rfl
  | error fault => exact .kept (by rw [Operation.loaded, loads]; rfl) rfl rfl rfl

theorem stackMove_perform (machine : Machine) (operation : Operation) :
    StackMove machine operation (machine.perform operation).1
      (machine.perform operation).2 := by
  have answered : ∀ outcome : Except Fault Unit,
      (Reply.ofOutcome outcome).calls = false ∧ (Reply.ofOutcome outcome).returns = false := by
    intro outcome
    cases outcome with
    | ok done => exact ⟨rfl, rfl⟩
    | error fault => exact ⟨rfl, rfl⟩
  cases operation with
  | step now period => exact stackMove_step machine now period
  | press key =>
      obtain ⟨notCalled, notReturned⟩ := answered (machine.press key).1
      refine .kept rfl notCalled notReturned ?_
      rw [perform, Prod.map, id, press_eq]
  | release key =>
      obtain ⟨notCalled, notReturned⟩ := answered (machine.release key).1
      refine .kept rfl notCalled notReturned ?_
      rw [perform, Prod.map, id, release_eq]
  | load program => exact stackMove_install machine rfl (machine.memory.load program)
  | loadFrom stream => exact stackMove_install machine rfl (machine.memory.loadFrom stream)
  | readSound | writeSound value | lowerSound => exact .kept rfl rfl rfl rfl

theorem Reachable.stack_le {machine : Machine} (reached : Reachable machine) :
    machine.stack.length ≤ callDepthLimit := by
  induction reached with
  | new random => exact Nat.zero_le callDepthLimit
  | @perform machine operation reached limited =>
      cases stackMove_perform machine operation with
      | cleared loaded empty =>
          rw [empty]
          exact Nat.zero_le callDepthLimit
      | pushed target called room grown =>
          rw [grown]
          exact room
      | popped returned shrunk =>
          rw [shrunk] at limited
          exact Nat.le_of_succ_le limited
      | kept notLoaded notCalled notReturned same =>
          rw [same]
          exact limited

/-! ## Counting -/

theorem repliesSinceLoad_concat (history : List (Operation × Reply)) (operation : Operation)
    (reply : Reply) :
    repliesSinceLoad (history ++ [(operation, reply)]) =
      if operation.loaded reply then [] else reply :: repliesSinceLoad history := by
  rw [repliesSinceLoad, List.reverse_concat, List.takeWhile_cons]
  cases operation.loaded reply with
  | true => rfl
  | false => rfl

/-- The operations with the replies to them. -/
def history (machine : Machine) (operations : List Operation) : List (Operation × Reply) :=
  operations.zip (machine.performAll operations).1

theorem history_concat (machine : Machine) (operations : List Operation)
    (operation : Operation) :
    machine.history (operations ++ [operation]) =
      machine.history operations ++
        [(operation, ((machine.performAll operations).2.perform operation).1)] := by
  rw [history, performAll_append, List.zip_append (length_performAll machine operations).symm]
  rfl

/-- The height of the call stack counts the calls less the returns since the program was
loaded, or since the machine was made. -/
theorem length_stack_add_returns (random : RandomBytes) (operations : List Operation) :
    ((new random).performAll operations).2.stack.length +
        (repliesSinceLoad ((new random).history operations)).countP Reply.returns =
      (repliesSinceLoad ((new random).history operations)).countP Reply.calls := by
  induction operations using List.reverseRecOn with
  | nil => rfl
  | append_singleton operations operation counted =>
      rw [history_concat, repliesSinceLoad_concat, performAll_append]
      generalize ((new random).performAll operations).2 = machine at counted ⊢
      generalize repliesSinceLoad ((new random).history operations) = replies at counted ⊢
      have last : (machine.performAll [operation]).2 = (machine.perform operation).2 := rfl
      rw [last]
      cases stackMove_perform machine operation with
      | cleared loaded empty =>
          rw [if_pos loaded, empty]
          rfl
      | pushed target called room grown =>
          rw [called, grown, if_neg (by simp [Operation.loaded])]
          simp only [List.countP_cons, List.length_cons, Reply.calls, Reply.returns, if_true,
            Bool.false_eq_true, if_false]
          omega
      | popped returned shrunk =>
          rw [shrunk, List.length_cons] at counted
          rw [returned, if_neg (by simp [Operation.loaded])]
          simp only [List.countP_cons, Reply.calls, Reply.returns, if_true,
            Bool.false_eq_true, if_false]
          omega
      | kept notLoaded notCalled notReturned same =>
          rw [if_neg (by simp [notLoaded]), same]
          simp only [List.countP_cons, notCalled, notReturned, Bool.false_eq_true, if_false]
          exact counted

/-! ## The return that matches a call -/

theorem suffix_perform {machine : Machine} {operation : Operation} {base : List UInt16}
    (stays : operation.loads = false) (held : base <:+ machine.stack)
    (deep : base.length ≤ (machine.perform operation).2.stack.length) :
    base <:+ (machine.perform operation).2.stack := by
  cases stackMove_perform machine operation with
  | cleared loaded empty =>
      rw [Operation.loaded, stays] at loaded
      cases loaded
  | pushed target called room grown =>
      rw [grown]
      exact held.trans (List.suffix_cons _ _)
  | popped returned shrunk =>
      rw [shrunk] at held
      rcases List.suffix_cons_iff.mp held with whole | below
      · rw [whole, List.length_cons] at deep
        exact absurd deep (Nat.not_succ_le_self _)
      · exact below
  | kept notLoaded notCalled notReturned same =>
      rw [same]
      exact held

theorem suffix_performAll {machine : Machine} {operations : List Operation}
    {base : List UInt16} (stay : ∀ operation ∈ operations, operation.loads = false)
    (deep : ∀ earlier later, operations = earlier ++ later →
      base.length ≤ (machine.performAll earlier).2.stack.length)
    (held : base <:+ machine.stack) : base <:+ (machine.performAll operations).2.stack := by
  induction operations generalizing machine with
  | nil => exact held
  | cons operation later ih =>
      have next : base <:+ (machine.perform operation).2.stack :=
        suffix_perform (stay operation List.mem_cons_self) held (deep [operation] later rfl)
      refine ih (fun other among => stay other (List.mem_cons_of_mem _ among)) ?_ next
      rintro earlier rest rfl
      exact deep (operation :: earlier) rest rfl

/-- While the stack stays higher than it was at a call, the call's return address stays in
its place, so the first return down to that height continues behind the call. -/
theorem matching_return {machine called returned : Machine} {operations : List Operation}
    {now period later pace : UInt64} {target : Address}
    (call : machine.step now period = (.ok (.call target), called))
    (stay : ∀ operation ∈ operations, operation.loads = false)
    (deep : ∀ earlier rest, operations = earlier ++ rest →
      machine.stack.length < (called.performAll earlier).2.stack.length)
    (down : (called.performAll operations).2.stack.length = machine.stack.length + 1)
    (ret : (called.performAll operations).2.step later pace = (.ok .ret, returned)) :
    returned.stack = machine.stack ∧ returned.counter = machine.counter + 2 := by
  have pushed : called.stack = (machine.counter + 2) :: machine.stack := by
    have move := stackMove_step machine now period
    rw [call] at move
    cases move with
    | pushed target called room grown => exact grown
    | cleared loaded empty => cases loaded
    | popped returned shrunk => cases returned
    | kept notLoaded notCalled notReturned same => cases notCalled
  have held : (machine.counter + 2) :: machine.stack <:+
      (called.performAll operations).2.stack :=
    suffix_performAll stay deep (pushed ▸ List.suffix_refl _)
  have top := held.eq_of_length down.symm
  have move := stackMove_step (called.performAll operations).2 later pace
  rw [ret] at move
  cases move with
  | popped returned shrunk =>
      rw [← top] at shrunk
      obtain ⟨counter, stack⟩ := List.cons.inj shrunk
      exact ⟨stack.symm, counter.symm⟩
  | cleared loaded empty => cases loaded
  | pushed target called room grown => cases called
  | kept notLoaded notCalled notReturned same => cases notReturned

end Machine

end ChipEight
