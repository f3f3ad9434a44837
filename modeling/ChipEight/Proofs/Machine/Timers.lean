import ChipEight.Proofs.Machine.History
import ChipEight.Proofs.Machine.Surroundings

/-!
# Machines but for their timers

One instruction reads the delay timer and none reads the sound timer. So machines that
differ in their timers alone do the same, whatever clock they are shown and whatever the
audio side does, until that instruction is executed.
-/

set_option autoImplicit false

namespace ChipEight

/-- The timers that a comparison of machines leaves out. -/
inductive Timers where
  /-- The delay timer, with its last tick and the time of the last step. -/
  | delay
  /-- The sound timer as well. -/
  | both

/-- What is left of a sound timer. -/
def Timers.heard : Timers → SoundTimer → SoundTimer
  | .delay, sound => sound
  | .both, _ => .silent

namespace Machine

/-- The machine with those timers at rest. -/
def without (timers : Timers) (machine : Machine) : Machine :=
  { machine with delay := 0, delaySince := 0, now := 0, sound := timers.heard machine.sound }

variable {timers : Timers}

/-! ## Instructions and steps -/

theorem without_execute (machine : Machine) {instruction : Instruction}
    (blind : ∀ x, instruction ≠ .readDelay x) :
    ((machine.without timers).execute instruction).without timers =
      (machine.execute instruction).without timers := by
  cases looks : instruction.looksOut with
  | false =>
      -- The timers are part of the surroundings, and these stay as they are.
      have kept := surroundings_execute machine looks
      have sound : (machine.execute instruction).sound = machine.sound :=
        congrArg Surroundings.sound kept
      have random : (machine.execute instruction).random = machine.random :=
        congrArg Surroundings.random kept
      have moved : (machine.without timers).execute instruction =
          (machine.execute instruction).within (machine.without timers).surroundings :=
        execute_within machine (machine.without timers).surroundings looks
      rw [moved]
      cases timers with
      | delay => simp only [without, within, surroundings, Timers.heard, sound, random]
      | both => simp only [without, within, surroundings, Timers.heard, random]
  | true =>
      cases instruction with
      | readDelay x => exact absurd rfl (blind x)
      | random x mask | setDelay x | setSound x => cases timers <;> rfl
      | _ => cases looks

theorem without_ready (machine : Machine) (now period : UInt64) :
    (machine.ready now period).without timers = (machine.without timers).advance := by
  rw [ready_eq]
  rfl

theorem obstacle_without (machine : Machine) (instruction : Instruction) :
    (machine.without timers).obstacle? instruction = machine.obstacle? instruction :=
  obstacle_within machine (machine.without timers).surroundings instruction

/-- Machines that differ in the timers alone answer a step alike, each at its own time, and
still differ in the timers alone unless the step has read the delay timer. -/
theorem step_congr {first second : Machine}
    (same : first.without timers = second.without timers) (now period later pace : UInt64) :
    (first.step now period).1 = (second.step later pace).1 ∧
      ((∀ x, (first.step now period).1 ≠ .ok (.readDelay x)) →
        (first.step now period).2.without timers =
          (second.step later pace).2.without timers) := by
  have sameWait : first.awaiting = second.awaiting := (congrArg awaiting same :)
  cases waiting : first.awaiting with
  | some x =>
      rw [step_of_awaiting waiting, step_of_awaiting (sameWait.symm.trans waiting)]
      exact ⟨rfl, fun _ => same⟩
  | none =>
      have sameWord : second.fetch = first.fetch := (congrArg fetch same.symm :)
      have sameReady : (first.ready now period).without timers =
          (second.ready later pace).without timers := by
        rw [without_ready, without_ready, same]
      rw [step_of_running waiting, step_of_running (sameWait.symm.trans waiting), sameWord]
      cases Instruction.decode first.fetch with
      | error fault => exact ⟨rfl, fun _ => sameReady⟩
      | ok instruction =>
          have sameObstacle : (second.ready later pace).obstacle? instruction =
              (first.ready now period).obstacle? instruction := by
            rw [← obstacle_without (second.ready later pace), ← sameReady, obstacle_without]
          dsimp only
          rw [sameObstacle]
          cases (first.ready now period).obstacle? instruction with
          | some fault => exact ⟨rfl, fun _ => sameReady⟩
          | none =>
              refine ⟨rfl, fun unread => ?_⟩
              have blind : ∀ x, instruction ≠ .readDelay x :=
                fun x reads => unread x (congrArg Except.ok reads)
              calc ((first.ready now period).execute instruction).without timers
                  = (((first.ready now period).without timers).execute instruction).without
                      timers := (without_execute _ blind).symm
                _ = (((second.ready later pace).without timers).execute instruction).without
                      timers := by rw [sameReady]
                _ = ((second.ready later pace).execute instruction).without timers :=
                    without_execute _ blind

/-! ## Keys -/

theorem resume_without (machine : Machine) (key : UInt8) :
    (machine.without timers).resume key = (machine.resume key).without timers := by
  cases waiting : machine.awaiting with
  | none =>
      have running : (machine.without timers).awaiting = none := waiting
      rw [resume_of_running running, resume_of_running waiting]
  | some x =>
      have awaits : (machine.without timers).awaiting = some x := waiting
      rw [resume_of_awaiting awaits, resume_of_awaiting waiting]
      rfl

theorem press_without (machine : Machine) (key : UInt8) :
    (machine.without timers).press key =
      ((machine.press key).1, (machine.press key).2.without timers) := by
  by_cases large : 0xf < key
  · rw [press_of_large large, press_of_large large]
  · rw [press_of_small (UInt8.not_lt.mp large), press_of_small (UInt8.not_lt.mp large)]
    exact congrArg _ (resume_without { machine with keypad := machine.keypad.press key } key)

theorem release_without (machine : Machine) (key : UInt8) :
    (machine.without timers).release key =
      ((machine.release key).1, (machine.release key).2.without timers) := by
  by_cases large : 0xf < key
  · rw [release_of_large large, release_of_large large]
  · rw [release_of_small (UInt8.not_lt.mp large), release_of_small (UInt8.not_lt.mp large)]
    rfl

end Machine

/-! ## Requests -/

/-- What the audio side asks of the sound timer. -/
def Operation.sounds : Operation → Bool
  | .readSound | .writeSound _ | .lowerSound => true
  | _ => false

/-- The same step, at whatever time, or the same key event. -/
inductive SameRequest : Operation → Operation → Prop where
  | step (now period later pace : UInt64) : SameRequest (.step now period) (.step later pace)
  | press (key : UInt8) : SameRequest (.press key) (.press key)
  | release (key : UInt8) : SameRequest (.release key) (.release key)

/-- The same steps and key events in the same order. The clock may show anything at each
step on either side, and the audio side may act anywhere on either. -/
inductive SameRequests : List Operation → List Operation → Prop where
  | nil : SameRequests [] []
  | cons {request other : Operation} {first second : List Operation} :
      SameRequest request other → SameRequests first second →
      SameRequests (request :: first) (other :: second)
  | soundFirst {operation : Operation} {first second : List Operation} :
      operation.sounds = true → SameRequests first second →
      SameRequests (operation :: first) second
  | soundSecond {operation : Operation} {first second : List Operation} :
      operation.sounds = true → SameRequests first second →
      SameRequests first (operation :: second)

theorem SameRequest.silent {request other : Operation} (same : SameRequest request other) :
    request.sounds = false ∧ other.sounds = false := by
  cases same with
  | step now period later pace => exact ⟨rfl, rfl⟩
  | press key => exact ⟨rfl, rfl⟩
  | release key => exact ⟨rfl, rfl⟩

namespace Machine

theorem perform_congr {timers : Timers} {request other : Operation}
    (same : SameRequest request other) {first second : Machine}
    (alike : first.without timers = second.without timers) :
    (first.perform request).1 = (second.perform other).1 ∧
      ((∀ x, (first.perform request).1 ≠ .executed (.readDelay x)) →
        (first.perform request).2.without timers = (second.perform other).2.without timers) := by
  cases same with
  | step now period later pace =>
      obtain ⟨outcome, after⟩ := step_congr alike now period later pace
      exact ⟨congrArg Reply.ofStep outcome,
        fun unread => after fun x reads => unread x (congrArg Reply.ofStep reads)⟩
  | press key =>
      have pressed : ((first.press key).1, (first.press key).2.without timers) =
          ((second.press key).1, (second.press key).2.without timers) := by
        rw [← press_without, ← press_without, alike]
      obtain ⟨outcome, after⟩ := Prod.mk.inj pressed
      exact ⟨congrArg Reply.ofOutcome outcome, fun _ => after⟩
  | release key =>
      have released : ((first.release key).1, (first.release key).2.without timers) =
          ((second.release key).1, (second.release key).2.without timers) := by
        rw [← release_without, ← release_without, alike]
      obtain ⟨outcome, after⟩ := Prod.mk.inj released
      exact ⟨congrArg Reply.ofOutcome outcome, fun _ => after⟩

theorem without_perform_of_sounds {operation : Operation} (sounds : operation.sounds = true)
    (machine : Machine) :
    (machine.perform operation).2.without .both = machine.without .both := by
  cases operation with
  | readSound | writeSound value | lowerSound => rfl
  | _ => cases sounds

/-- The reply to each step and key event, with the machine after it but for its timers. -/
def course (machine : Machine) : List Operation → List (Reply × Machine)
  | [] => []
  | operation :: later =>
    let (reply, next) := machine.perform operation
    if operation.sounds then next.course later
    else (reply, next.without .both) :: next.course later

theorem course_of_sounds {operation : Operation} (sounds : operation.sounds = true)
    (machine : Machine) (later : List Operation) :
    machine.course (operation :: later) = (machine.perform operation).2.course later :=
  if_pos sounds

theorem course_of_silent {operation : Operation} (silent : operation.sounds = false)
    (machine : Machine) (later : List Operation) :
    machine.course (operation :: later) =
      ((machine.perform operation).1, (machine.perform operation).2.without .both) ::
        (machine.perform operation).2.course later :=
  if_neg (Bool.eq_false_iff.mp silent)

theorem course_congr {requests others : List Operation}
    (same : SameRequests requests others) {first second : Machine}
    (alike : first.without .both = second.without .both)
    (blind : ∀ x, .executed (.readDelay x) ∉ (first.performAll requests).1) :
    first.course requests = second.course others ∧
      (first.performAll requests).2.without .both =
        (second.performAll others).2.without .both := by
  -- A request moves both machines, an operation on the sound timer only one of them.
  induction same generalizing first second with
  | nil => exact ⟨rfl, alike⟩
  | cons same rest ih =>
      obtain ⟨reply, after⟩ := perform_congr same alike
      have next := after fun x => (List.ne_of_not_mem_cons (blind x)).symm
      obtain ⟨course, last⟩ := ih next fun x => List.not_mem_of_not_mem_cons (blind x)
      rw [course_of_silent same.silent.1, course_of_silent same.silent.2, reply, next, course]
      exact ⟨rfl, last⟩
  | soundFirst sounds rest ih =>
      rw [course_of_sounds sounds]
      exact ih ((without_perform_of_sounds sounds first).trans alike)
        fun x => List.not_mem_of_not_mem_cons (blind x)
  | soundSecond sounds rest ih =>
      rw [course_of_sounds sounds]
      exact ih (alike.trans (without_perform_of_sounds sounds second).symm) blind

/-- The clock and the audio side reach a machine through the instruction that reads the
delay timer and in no other way. Until one of two histories of the same requests has
executed that instruction, every request has the same reply in both and leaves the same
machine but for its timers, and so has the next request, whatever it executes. -/
theorem course_eq_of_sameRequests (machine : Machine) {first second : List Operation}
    (same : SameRequests first second)
    (blind : ∀ x, .executed (.readDelay x) ∉ (machine.performAll first).1) :
    machine.course first = machine.course second ∧
      (machine.performAll first).2.without .both =
        (machine.performAll second).2.without .both ∧
      ∀ request other, SameRequest request other →
        ((machine.performAll first).2.perform request).1 =
          ((machine.performAll second).2.perform other).1 := by
  obtain ⟨course, last⟩ := course_congr same rfl blind
  exact ⟨course, last, fun _ _ next => (perform_congr next last).1⟩

/-- Both histories set the timers, wait for a key, and come to a step that reads the delay
timer, which holds another value in each by then. -/
theorem course_eq_of_sameRequests_timers_apart :
    let machine := ((new (.counter 7 3)).load
      [0x60, 0x05, 0xf0, 0x15, 0xf0, 0x18, 0xf1, 0x0a, 0xf2, 0x07]).2
    let first : List Operation :=
      [.step 1 1, .step 2 1, .step 9 1, .step 11 1, .step 13 1, .press 7]
    let second : List Operation :=
      [.writeSound 200, .step 50 3, .step 0 0, .step 7 100, .lowerSound, .step 2 9, .readSound,
        .step 900 0, .press 7, .lowerSound]
    SameRequests first second ∧
      (∀ x, .executed (.readDelay x) ∉ (machine.performAll first).1) ∧
      machine.course first = machine.course second ∧
      ((machine.performAll first).2.perform (.step 14 9)).1 =
        ((machine.performAll second).2.perform (.step 0 0)).1 ∧
      ((machine.performAll first).2.perform (.step 14 9)).1 = .executed (.readDelay 2) ∧
      (machine.performAll first).2.delay = 3 ∧ (machine.performAll second).2.delay = 5 ∧
      (machine.performAll first).2.sound = ⟨5⟩ ∧ (machine.performAll second).2.sound = ⟨3⟩ := by
  intro machine first second
  have same : SameRequests first second :=
    .soundSecond rfl (.cons (.step ..) (.cons (.step ..) (.cons (.step ..) (.soundSecond rfl
      (.cons (.step ..) (.soundSecond rfl (.cons (.step ..) (.cons (.press 7)
        (.soundSecond rfl .nil)))))))))
  have blind : ∀ x, .executed (.readDelay x) ∉ (machine.performAll first).1 := by
    decide +kernel
  obtain ⟨course, -, next⟩ := course_eq_of_sameRequests machine same blind
  refine ⟨same, blind, course, next _ _ (.step 14 9 0 0), ?_⟩
  decide +kernel

end Machine

end ChipEight
