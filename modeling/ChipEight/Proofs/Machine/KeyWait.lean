import ChipEight.Proofs.Machine.Failure

/-!
# Waiting for a key

A machine that waits for a key has its program counter on the instruction that waits. It
stays as it is, the keypad apart, until a key goes down, which puts the number of the key
into the register and moves the counter on, or until another program is loaded.
-/

set_option autoImplicit false

namespace ChipEight

/-- What comes and goes while a machine waits: steps, keys that go up, and keys pressed
that the keypad does not have. -/
def Operation.OutlastedByWait : Operation → Prop
  | .step _ _ | .release _ => True
  | .press key => 15 < key.toNat
  | _ => False

theorem Instruction.awaited?_eq_some {instruction : Instruction} {x : Register}
    (awaits : instruction.awaited? = some x) : instruction = .awaitKey x := by
  cases instruction with
  | awaitKey y =>
      cases awaits
      rfl
  | _ => cases awaits

namespace Machine

/-! ## The counter of a waiting machine -/

/-- If the machine waits for a key, the word at its program counter is the instruction
that waits for it. -/
def WaitsInPlace (machine : Machine) : Prop :=
  ∀ x, machine.awaiting = some x → Instruction.decode machine.fetch = .ok (.awaitKey x)

theorem awaiting_resume (machine : Machine) (key : UInt8) :
    (machine.resume key).awaiting = none := by
  cases waiting : machine.awaiting with
  | none => rw [resume_of_running waiting, waiting]
  | some x => rw [resume_of_awaiting waiting]

theorem waitsInPlace_step {machine : Machine} (inPlace : machine.WaitsInPlace)
    (now period : UInt64) : (machine.step now period).2.WaitsInPlace := by
  rcases machine.step_cases now period with
    ⟨-, refused⟩ | ⟨running, fault, -, failed⟩ | ⟨running, instruction, decoded, -, executed⟩
  · rw [refused]
    exact inPlace
  · rw [failed, ready_eq]
    intro x waiting
    rw [running] at waiting
    cases waiting
  · rw [executed]
    intro x waiting
    have awaits : instruction.awaited? = some x := by
      rw [(framed_execute _ instruction).awaiting, ready_eq, running, Option.or_none] at waiting
      exact waiting
    have same := Instruction.awaited?_eq_some awaits
    subst same
    -- The counter goes back over the two bytes that the step has moved it on.
    have back : machine.counter + 2 - 2 = machine.counter := UInt16.add_sub_cancel _ _
    have fetched : ((machine.ready now period).execute (.awaitKey x)).fetch = machine.fetch := by
      rw [ready_eq, fetch, fetch, execute, back]
    rw [fetched]
    exact decoded

theorem waitsInPlace_perform {machine : Machine} (placed : machine.memory.origin = programStart)
    (inPlace : machine.WaitsInPlace) (operation : Operation) :
    (machine.perform operation).2.WaitsInPlace := by
  by_cases loads : operation.loads = true
  · rcases perform_of_loads placed loads with ⟨program, loaded⟩ | ⟨fault, -, refused⟩
    · rw [loaded]
      intro x waiting
      cases waiting
    · rw [refused]
      exact inPlace
  · cases operation with
    | step now period => exact waitsInPlace_step inPlace now period
    | press key =>
        rw [perform, Prod.map, id]
        by_cases large : 0xf < key
        · rw [press_of_large large]
          exact inPlace
        · rw [press_of_small (UInt8.not_lt.mp large)]
          intro x waiting
          rw [awaiting_resume] at waiting
          cases waiting
    | release key =>
        rw [perform, Prod.map, id, release_eq]
        exact inPlace
    | load program | loadFrom stream => exact absurd rfl loads
    | readSound | writeSound value | lowerSound => exact inPlace

theorem Reachable.waitsInPlace {machine : Machine} (reached : Reachable machine) :
    machine.WaitsInPlace := by
  induction reached with
  | new random =>
      intro x waiting
      cases waiting
  | perform operation reached inPlace =>
      exact waitsInPlace_perform reached.origin inPlace operation

/-! ## While the machine waits -/

theorem perform_of_outlasted {machine : Machine} {x : Register} {operation : Operation}
    (waiting : machine.awaiting = some x) (outlasted : operation.OutlastedByWait) :
    (machine.perform operation).2 =
      { machine with keypad := (machine.perform operation).2.keypad } := by
  cases operation with
  | step now period =>
      rw [perform, step_of_awaiting waiting]
      rfl
  | press key =>
      rw [perform, press_of_large (UInt8.lt_iff_toNat_lt.mpr outlasted)]
      rfl
  | release key => exact release_eq machine key
  | _ => cases outlasted

theorem performAll_of_outlasted {machine : Machine} {x : Register}
    (waiting : machine.awaiting = some x) {operations : List Operation}
    (outlasted : ∀ operation ∈ operations, operation.OutlastedByWait) :
    (machine.performAll operations).2 =
      { machine with keypad := (machine.performAll operations).2.keypad } := by
  induction operations generalizing machine with
  | nil => rfl
  | cons operation later ih =>
      have first := perform_of_outlasted waiting (outlasted operation List.mem_cons_self)
      have stillWaiting : (machine.perform operation).2.awaiting = some x := by
        rw [first]
        exact waiting
      have rest := ih stillWaiting fun other among =>
        outlasted other (List.mem_cons_of_mem _ among)
      rw [performAll_cons, rest, first]

theorem reply_of_outlasted {machine : Machine} {x : Register}
    (waiting : machine.awaiting = some x) {operations : List Operation}
    (outlasted : ∀ operation ∈ operations, operation.OutlastedByWait)
    {position : Nat} {now period : UInt64}
    (asked : operations[position]? = some (.step now period)) :
    (machine.performAll operations).1[position]? = some (.refused .awaitingKey) := by
  induction operations generalizing machine position with
  | nil => cases asked
  | cons operation later ih =>
      have first := perform_of_outlasted waiting (outlasted operation List.mem_cons_self)
      have stillWaiting : (machine.perform operation).2.awaiting = some x := by
        rw [first]
        exact waiting
      rw [performAll_cons]
      cases position with
      | zero =>
          cases asked
          rw [perform, step_of_awaiting waiting]
          rfl
      | succ position =>
          exact ih stillWaiting
            (fun other among => outlasted other (List.mem_cons_of_mem _ among)) asked

/-! ## The end of a wait -/

theorem press_of_awaiting {machine : Machine} {x : Register}
    (waiting : machine.awaiting = some x) {key : UInt8} (small : key.toNat ≤ 15) :
    machine.press key =
      (.ok (),
        { machine with
          registers := machine.registers.set x key
          counter := machine.counter + 2
          keypad := ⟨machine.keypad.mask ||| 1 <<< key.toUInt16⟩
          awaiting := none }) := by
  have accepted : key ≤ 0xf := UInt8.le_iff_toNat_le.mpr small
  have alsoWaiting :
      ({ machine with keypad := machine.keypad.press key } : Machine).awaiting = some x :=
    waiting
  rw [press_of_small accepted, resume_of_awaiting alsoWaiting, Keypad.press, if_pos accepted]
  rfl

theorem end_of_wait {machine : Machine} {x : Register}
    (placed : machine.memory.origin = programStart) (waiting : machine.awaiting = some x)
    {operation : Operation} (ended : (machine.perform operation).2.awaiting ≠ some x) :
    (∃ key, key.toNat ≤ 15 ∧ operation = .press key) ∨
      operation.loaded (machine.perform operation).1 = true := by
  by_cases loads : operation.loads = true
  · rcases perform_of_loads placed loads with ⟨program, loaded⟩ | ⟨fault, -, refused⟩
    · refine .inr ?_
      rw [Operation.loaded, loads, loaded]
      rfl
    · rw [refused] at ended
      exact absurd waiting ended
  · by_cases outlasted : operation.OutlastedByWait
    · rw [perform_of_outlasted waiting outlasted] at ended
      exact absurd waiting ended
    · cases operation with
      | press key => exact .inl ⟨key, Nat.le_of_not_lt outlasted, rfl⟩
      | step now period | release key => exact absurd trivial outlasted
      | load program | loadFrom stream => exact absurd rfl loads
      | readSound | writeSound value | lowerSound => exact absurd waiting ended

/-- The protocol of a wait for a key, in every state that operations lead to. The counter
is on the instruction that waits. Steps, keys that go up and keys that the keypad does not
have leave all but the keypad as it is, and the steps are refused. The first key that goes
down then puts its number into the register and moves on behind the instruction. Nothing
else ends the wait but loading a program. -/
theorem keyWait_protocol {machine : Machine} {x : Register} (reached : Reachable machine)
    (waiting : machine.awaiting = some x) :
    x.val ≤ 15 ∧ Instruction.decode? machine.wordAtCounter = some (.awaitKey x) ∧
    (∀ operations : List Operation,
      (∀ operation ∈ operations, operation.OutlastedByWait) →
      let replies := (machine.performAll operations).1
      let after := (machine.performAll operations).2
      after = { machine with keypad := after.keypad } ∧
      (∀ (position : Nat) (now period : UInt64),
        operations[position]? = some (.step now period) →
        replies[position]? = some (.refused .awaitingKey)) ∧
      ∀ key : UInt8, key.toNat ≤ 15 →
        after.press key =
          (.ok (),
            { machine with
              registers := machine.registers.set x key x.isLt
              counter := machine.counter + 2
              keypad := ⟨after.keypad.mask ||| 1 <<< key.toUInt16⟩
              awaiting := none })) ∧
    ∀ operation : Operation, (machine.perform operation).2.awaiting ≠ some x →
      (∃ key, key.toNat ≤ 15 ∧ operation = .press key) ∨
        operation.loaded (machine.perform operation).1 = true := by
  have decoded : Instruction.decode? machine.wordAtCounter = some (.awaitKey x) := by
    have inPlace := reached.waitsInPlace x waiting
    rw [fetch_eq_wordAtCounter] at inPlace
    exact Instruction.decode_eq_ok_iff.mp inPlace
  refine ⟨Nat.le_of_lt_succ x.isLt, decoded, ?_, fun _ => end_of_wait reached.origin waiting⟩
  intro operations outlasted replies after
  have unchanged : after = { machine with keypad := after.keypad } :=
    performAll_of_outlasted waiting outlasted
  have stillWaiting : after.awaiting = some x := by
    rw [unchanged]
    exact waiting
  refine ⟨unchanged, fun _ _ _ asked => reply_of_outlasted waiting outlasted asked, ?_⟩
  intro key small
  rw [press_of_awaiting stillWaiting small]
  -- What the press leaves alone is what it was when the wait began.
  generalize after.keypad = keypad at unchanged ⊢
  rw [unchanged]

/-- A program that writes the instruction that waits into the bytes below its own and
jumps there past the end of memory, with a key already held. Steps, the release of that
key and a press of a key that does not exist change nothing, and key 7 ends the wait. -/
theorem keyWait_protocol_past_end :
    let waiting := ((new (.counter 7 3)).performAll
      (.press 2 :: .load [0x60, 0xf3, 0x61, 0x0a, 0xa0, 0xf2, 0xf1, 0x55, 0xbf, 0xff] ::
        List.replicate 6 (.step 1 1))).2
    let outlasted : List Operation := [.step 50 1, .release 2, .press 0x20, .step 60 1]
    let after := (waiting.performAll outlasted).2
    Reachable waiting ∧ waiting.awaiting = some 3 ∧ waiting.counter = 0x10f2 ∧
      Instruction.decode? waiting.wordAtCounter = some (.awaitKey 3) ∧
      (∀ operation ∈ outlasted, operation.OutlastedByWait) ∧
      (waiting.performAll outlasted).1[3]? = some (.refused .awaitingKey) ∧
      (after.press 7).1 = .ok () ∧ (after.press 7).2.counter = 0x10f4 ∧
      (after.press 7).2.register 3 = 7 := by
  intro waiting outlasted after
  have reached : Reachable waiting := (Reachable.new (.counter 7 3)).performAll _
  obtain ⟨awaits, counter⟩ : waiting.awaiting = some 3 ∧ waiting.counter = 0x10f2 := by
    decide +kernel
  have outlast : ∀ operation ∈ outlasted, operation.OutlastedByWait := by
    simp [outlasted, Operation.OutlastedByWait]
  obtain ⟨-, decoded, during, -⟩ := keyWait_protocol reached awaits
  obtain ⟨-, refused, ends⟩ := during outlasted outlast
  have pressed := ends 7 (by decide)
  refine ⟨reached, awaits, counter, decoded, outlast, refused 3 60 1 rfl, ?_⟩
  rw [pressed, counter]
  exact ⟨rfl, rfl, Vector.getElem_set_self (by decide)⟩

end Machine

end ChipEight
