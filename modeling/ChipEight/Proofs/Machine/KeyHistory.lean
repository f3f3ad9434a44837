import ChipEight.Proofs.Machine.Execution
import ChipEight.Proofs.Run.Typed

/-!
# Keys by their history

A key is down exactly if it has been pressed since a program was last loaded and has not been
released after that. A number above fifteen is refused and touches no key.
-/

set_option autoImplicit false

namespace ChipEight

/-- The key has been pressed, and after that it has not been released and no program has been
loaded. -/
def DownByHistory (history : List (Operation × Reply)) (key : UInt8) : Prop :=
  ∃ earlier later, history = earlier ++ (.press key, .done) :: later ∧
    ∀ entry ∈ later, entry.1 ≠ .release key ∧ entry.1.loaded entry.2 = false

theorem not_downByHistory_nil (key : UInt8) : ¬ DownByHistory [] key := by
  rintro ⟨earlier, later, split, -⟩
  cases earlier with
  | nil => cases split
  | cons entry earlier => cases split

theorem downByHistory_concat {history : List (Operation × Reply)} {operation : Operation}
    {reply : Reply} {key : UInt8} :
    DownByHistory (history ++ [(operation, reply)]) key ↔
      (operation = .press key ∧ reply = .done) ∨
        (DownByHistory history key ∧ operation ≠ .release key ∧
          operation.loaded reply = false) := by
  constructor
  · rintro ⟨earlier, later, split, kept⟩
    rcases List.eq_nil_or_concat later with rfl | ⟨between, last, rfl⟩
    · obtain ⟨-, same⟩ := List.append_inj' split rfl
      cases List.singleton_inj.mp same
      exact .inl ⟨rfl, rfl⟩
    · rw [List.concat_eq_append] at split kept
      have final := kept last (List.mem_append_right _ (List.mem_singleton_self last))
      rw [← List.cons_append, ← List.append_assoc] at split
      obtain ⟨rfl, same⟩ := List.append_inj' split rfl
      cases List.singleton_inj.mp same
      exact .inr ⟨⟨earlier, between, rfl, fun entry among =>
        kept entry (List.mem_append_left _ among)⟩, final⟩
  · rintro (⟨rfl, rfl⟩ | ⟨⟨earlier, later, rfl, kept⟩, notReleased, notLoaded⟩)
    · exact ⟨history, [], rfl, List.forall_mem_nil _⟩
    · refine ⟨earlier, later ++ [(operation, reply)], List.append_assoc _ _ _, ?_⟩
      intro entry among
      rcases List.mem_append.mp among with before | last
      · exact kept entry before
      · cases List.mem_singleton.mp last
        exact ⟨notReleased, notLoaded⟩

def Operation.movesKey : Operation → Bool
  | .press _ | .release _ => true
  | _ => false

/-- What an operation with its reply does to the keypad. -/
inductive PadMove (before : Keypad) (operation : Operation) (reply : Reply) (after : Keypad) :
    Prop where
  | cleared (loaded : operation.loaded reply = true) (idle : after = .idle)
  | pressed (key : Fin 16) (asked : operation = .press (Keypad.number key))
      (taken : reply = .done) (down : after = before.press (Keypad.number key))
  | released (key : Fin 16) (asked : operation = .release (Keypad.number key))
      (up : after = before.release (Keypad.number key))
  | kept (notLoaded : operation.loaded reply = false)
      (notPressed : ∀ key : Fin 16, operation ≠ .press (Keypad.number key))
      (notReleased : ∀ key : Fin 16, operation ≠ .release (Keypad.number key))
      (same : after = before)

theorem PadMove.of_other {before after : Keypad} {operation : Operation} {reply : Reply}
    (other : operation.movesKey = false) (notLoaded : operation.loaded reply = false)
    (same : after = before) : PadMove before operation reply after := by
  refine .kept notLoaded ?_ ?_ same
  · rintro key rfl
    cases other
  · rintro key rfl
    cases other

theorem PadMove.testBit_iff {before after : Keypad} {operation : Operation} {reply : Reply}
    (move : PadMove before operation reply after) (key : Fin 16) :
    after.mask.toNat.testBit key.val = true ↔
      (operation = .press (Keypad.number key) ∧ reply = .done) ∨
        (before.mask.toNat.testBit key.val = true ∧ operation ≠ .release (Keypad.number key) ∧
          operation.loaded reply = false) := by
  cases move with
  | cleared loaded idle =>
      have up : after.mask.toNat.testBit key.val = false := by
        rw [idle]
        exact Nat.zero_testBit _
      refine iff_of_false (Bool.eq_false_iff.mp up) ?_
      rintro (⟨rfl, -⟩ | ⟨-, -, notLoaded⟩)
      · cases loaded
      · exact absurd (loaded.symm.trans notLoaded) (by decide)
  | pressed other asked taken down =>
      subst asked taken down
      rw [Keypad.testBit_press, Bool.or_eq_true, decide_eq_true_iff]
      constructor
      · rintro (was | rfl)
        · exact .inr ⟨was, nofun, rfl⟩
        · exact .inl ⟨rfl, rfl⟩
      · rintro (⟨same, -⟩ | ⟨was, -⟩)
        · exact .inr (Keypad.number_injective (Operation.press.inj same))
        · exact .inl was
  | released other asked up =>
      subst asked up
      rw [Keypad.testBit_release, Bool.and_eq_true, decide_eq_true_iff]
      constructor
      · rintro ⟨was, apart⟩
        exact .inr ⟨was, fun same => apart (Keypad.number_injective (Operation.release.inj same)),
          rfl⟩
      · rintro (⟨same, -⟩ | ⟨was, apart, -⟩)
        · cases same
        · exact ⟨was, fun same => apart (same ▸ rfl)⟩
  | kept notLoaded notPressed notReleased same =>
      subst same
      constructor
      · intro was
        exact .inr ⟨was, notReleased key, notLoaded⟩
      · rintro (⟨asked, -⟩ | ⟨was, -⟩)
        · exact absurd asked (notPressed key)
        · exact was

namespace Machine

theorem padMove_press (machine : Machine) (byte : UInt8) :
    PadMove machine.keypad (.press byte) (.ofOutcome (machine.press byte).1)
      (machine.press byte).2.keypad := by
  by_cases large : 0xf < byte
  · rw [press_of_large large]
    refine .kept rfl (fun key same => ?_) (fun key => nofun) rfl
    cases same
    exact absurd (Keypad.number_le key) (UInt8.not_le.mpr large)
  · obtain ⟨key, rfl⟩ := Keypad.exists_number (UInt8.not_lt.mp large)
    have taken : (machine.press (Keypad.number key)).1 = .ok () := by
      rw [press_of_small (UInt8.not_lt.mp large)]
    have down : (machine.afterEvent (.press (Keypad.number key))).keypad =
        machine.keypad.press (Keypad.number key) := machine.keypad_afterEvent
    exact .pressed key rfl (congrArg Reply.ofOutcome taken) down

theorem padMove_release (machine : Machine) (byte : UInt8) :
    PadMove machine.keypad (.release byte) (.ofOutcome (machine.release byte).1)
      (machine.release byte).2.keypad := by
  by_cases large : 0xf < byte
  · rw [release_of_large large]
    refine .kept rfl (fun key => nofun) (fun key same => ?_) rfl
    cases same
    exact absurd (Keypad.number_le key) (UInt8.not_le.mpr large)
  · obtain ⟨key, rfl⟩ := Keypad.exists_number (UInt8.not_lt.mp large)
    have up : (machine.afterEvent (.release (Keypad.number key))).keypad =
        machine.keypad.release (Keypad.number key) := machine.keypad_afterEvent
    exact .released key rfl up

theorem padMove_perform {machine : Machine} (placed : machine.memory.origin = programStart)
    (operation : Operation) :
    PadMove machine.keypad operation (machine.perform operation).1
      (machine.perform operation).2.keypad := by
  by_cases loads : operation.loads = true
  · rcases perform_of_loads placed loads with ⟨program, loaded⟩ | ⟨fault, -, refused⟩
    · rw [loaded]
      refine .cleared ?_ rfl
      rw [Operation.loaded, loads]
      rfl
    · rw [refused]
      cases operation with
      | load program | loadFrom stream => exact .of_other rfl rfl rfl
      | _ => cases loads
  · cases operation with
    | step now period => exact .of_other rfl rfl (keypad_step machine now period)
    | press byte => exact machine.padMove_press byte
    | release byte => exact machine.padMove_release byte
    | load program | loadFrom stream => exact absurd rfl loads
    | readSound | writeSound value | lowerSound => exact .of_other rfl rfl rfl

theorem testBit_iff_downByHistory (random : RandomBytes) (operations : List Operation)
    (key : Fin 16) :
    ((new random).performAll operations).2.keypad.mask.toNat.testBit key.val = true ↔
      DownByHistory ((new random).history operations) (Keypad.number key) := by
  induction operations using List.reverseRecOn with
  | nil =>
      have up : ((new random).performAll []).2.keypad.mask.toNat.testBit key.val = false :=
        Nat.zero_testBit _
      exact iff_of_false (Bool.eq_false_iff.mp up) (not_downByHistory_nil _)
  | append_singleton operations operation ih =>
      have placed := ((Reachable.new random).performAll operations).origin
      have move := padMove_perform placed operation
      rw [history_concat, downByHistory_concat, ← ih, performAll_append]
      exact move.testBit_iff key

theorem le_of_downByHistory {random : RandomBytes} {operations : List Operation} {byte : UInt8}
    (down : DownByHistory ((new random).history operations) byte) : byte ≤ 0xf := by
  induction operations using List.reverseRecOn with
  | nil => exact absurd down (not_downByHistory_nil byte)
  | append_singleton operations operation ih =>
      rw [history_concat, downByHistory_concat] at down
      rcases down with ⟨rfl, taken⟩ | ⟨before, -⟩
      · refine UInt8.not_lt.mp fun large => ?_
        rw [perform, press_of_large large] at taken
        cases taken
      · exact ih before

theorem isDown_iff_downByHistory (random : RandomBytes) (operations : List Operation)
    (byte : UInt8) :
    ((new random).performAll operations).2.keypad.isDown byte = true ↔
      byte.toNat ≤ 15 ∧ DownByHistory ((new random).history operations) byte := by
  rw [Keypad.isDown_iff]
  constructor
  · rintro ⟨key, rfl, set⟩
    have held := (testBit_iff_downByHistory random operations key).mp set
    exact ⟨UInt8.le_iff_toNat_le.mp (le_of_downByHistory held), held⟩
  · rintro ⟨within, held⟩
    obtain ⟨key, rfl⟩ := Keypad.exists_number (UInt8.le_iff_toNat_le.mpr within)
    exact ⟨key, rfl, (testBit_iff_downByHistory random operations key).mpr held⟩

/-- A running machine whose counter is on the skip executes it, and it skips exactly if the
condition is met. -/
structure SkipsExactly (machine : Machine) (condition : Condition) (met : Prop) : Prop where
  executed : ∀ now period, machine.awaiting = none →
    machine.wordAtCounter = (Instruction.skip condition).encode →
      (machine.step now period).1 = .ok (.skip condition)
  skips : ∀ now period, (machine.step now period).1 = .ok (.skip condition) →
    machine.SkipsIff (machine.step now period).2 met

theorem skipsExactly_of_holds {machine : Machine} {condition : Condition} {met : Prop}
    (same : machine.holds condition = true ↔ met) : machine.SkipsExactly condition met where
  executed now period running word := step_of_word rfl running word now period
  skips _ _ skipped := skipsIff_of_step skipped same

/-- In every state that operations lead to, a key is down exactly if it has been pressed since
the last program was loaded and not released after that. Numbers above fifteen are refused and
change nothing, and the skips on a key go by the same history, whatever the register holds. -/
theorem keys_by_history (random : RandomBytes) (operations : List Operation) :
    let machine := ((new random).performAll operations).2
    let history := (new random).history operations
    (∀ key : UInt8, key.toNat ≤ 15 →
      (machine.keypad.mask.toNat.testBit key.toNat = true ↔ DownByHistory history key)) ∧
    (∀ byte : UInt8, 15 < byte.toNat →
      machine.press byte = (.error (.keyOutOfRange byte), machine) ∧
        machine.release byte = (.error (.keyOutOfRange byte), machine) ∧
        ¬ DownByHistory history byte) ∧
    ∀ x : Register,
      machine.SkipsExactly (.pressed x)
        ((machine.register x).toNat ≤ 15 ∧ DownByHistory history (machine.register x)) ∧
      machine.SkipsExactly (.released x)
        (¬ ((machine.register x).toNat ≤ 15 ∧ DownByHistory history (machine.register x))) := by
  intro machine history
  have down : ∀ byte, machine.keypad.isDown byte = true ↔
      byte.toNat ≤ 15 ∧ DownByHistory history byte := isDown_iff_downByHistory random operations
  refine ⟨?_, ?_, ?_⟩
  · intro byte within
    obtain ⟨key, rfl⟩ := Keypad.exists_number (UInt8.le_iff_toNat_le.mpr within)
    rw [Keypad.toNat_number]
    exact testBit_iff_downByHistory random operations key
  · intro byte large
    have outside : 0xf < byte := UInt8.lt_iff_toNat_lt.mpr large
    exact ⟨press_of_large outside machine, release_of_large outside machine,
      fun held => absurd (le_of_downByHistory held) (UInt8.not_le.mpr outside)⟩
  · intro x
    refine ⟨skipsExactly_of_holds (down _), skipsExactly_of_holds ?_⟩
    rw [holds, Bool.not_eq_true', ← Bool.not_eq_true]
    exact not_congr (down _)

/-- The key press that ends a wait is noted like any other, and the skip after the wait finds it.
A number with the same last digit is refused and is no key. -/
theorem keys_by_history_pressed :
    let random := RandomBytes.counter 0 0
    let operations : List Operation := [.load [0xf1, 0x0a, 0xe1, 0x9e], .step 0 1, .press 7]
    let machine := ((new random).performAll operations).2
    let history := (new random).history operations
    DownByHistory history 7 ∧ ¬ DownByHistory history 8 ∧ ¬ DownByHistory history 0x17 ∧
      machine.press 0x17 = (.error (.keyOutOfRange 0x17), machine) ∧
      (machine.step 0 1).1 = .ok (.skip (.pressed 1)) ∧
      (machine.step 0 1).2.counter = machine.counter + 4 := by
  intro random operations machine history
  obtain ⟨mask, found, running, word⟩ : machine.keypad.mask = 0x80 ∧ machine.register 1 = 7 ∧
      machine.awaiting = none ∧
      machine.wordAtCounter = (Instruction.skip (.pressed 1)).encode := by decide +kernel
  obtain ⟨bits, refused, skips⟩ := keys_by_history random operations
  have down : DownByHistory history 7 := (bits 7 (by decide)).mp (by rw [mask]; decide)
  have up : ¬ DownByHistory history 8 := fun held => by
    have set := (bits 8 (by decide)).mpr held
    rw [mask] at set
    exact absurd set (by decide)
  obtain ⟨pressed, -, untouched⟩ := refused 0x17 (by decide)
  obtain ⟨executed, skipsIff⟩ := (skips 1).1
  have done : (machine.step 0 1).1 = .ok (.skip (.pressed 1)) := executed 0 1 running word
  refine ⟨down, up, untouched, pressed, done, ?_⟩
  rcases skipsIff 0 1 done with ⟨-, further⟩ | ⟨unmet, -⟩
  · exact further
  · exact absurd ⟨by rw [found]; decide, found.symm ▸ down⟩ unmet

end Machine

end ChipEight
