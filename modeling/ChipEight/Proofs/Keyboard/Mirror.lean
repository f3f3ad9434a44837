import ChipEight.Keyboard.Held
import ChipEight.Proofs.Run.Delivery
import Mathlib.Algebra.Group.Nat.Defs

/-!
# Keypad and keyboard

The keys that are down on the keypad are those that count as held on the keyboard: what a poll
of the keyboard tells the machine makes the one change exactly as the poll has changed the other.
-/

set_option autoImplicit false

namespace ChipEight

/-! ## Bits of the keypad -/

namespace Keypad

/-- The number by which the machine is told of a key. -/
def number (key : Fin 16) : UInt8 := UInt8.ofNat key.val

theorem toNat_number (key : Fin 16) : (number key).toNat = key.val := by
  revert key
  decide

theorem number_le (key : Fin 16) : number key ≤ 0xf := by
  revert key
  decide

theorem number_injective {key other : Fin 16} (same : number key = number other) :
    key = other := by
  revert key other
  decide

theorem exists_number {byte : UInt8} (small : byte ≤ 0xf) : ∃ key, byte = number key := by
  have below : byte.toNat < 16 := Nat.lt_succ_of_le (UInt8.le_iff_toNat_le.mp small)
  exact ⟨⟨byte.toNat, below⟩, (UInt8.ofNat_toNat).symm⟩

theorem toNat_bit (key : Fin 16) : (bit (number key)).toNat = 2 ^ key.val := by
  revert key
  decide

theorem testBit_not_bit (key other : Fin 16) :
    (~~~bit (number key)).toNat.testBit other.val = decide (key ≠ other) := by
  revert key other
  decide

theorem testBit_press (keypad : Keypad) (key other : Fin 16) :
    (keypad.press (number key)).mask.toNat.testBit other.val =
      (keypad.mask.toNat.testBit other.val || decide (key = other)) := by
  rw [press, if_pos (number_le key)]
  simp only [UInt16.toNat_or, Nat.testBit_or, toNat_bit, Nat.testBit_two_pow, Fin.ext_iff]

theorem testBit_release (keypad : Keypad) (key other : Fin 16) :
    (keypad.release (number key)).mask.toNat.testBit other.val =
      (keypad.mask.toNat.testBit other.val && decide (key ≠ other)) := by
  rw [release, if_pos (number_le key)]
  simp only [UInt16.toNat_and, Nat.testBit_and, testBit_not_bit]

theorem isDown_number (keypad : Keypad) (key : Fin 16) :
    keypad.isDown (number key) = keypad.mask.toNat.testBit key.val := by
  have among : ∀ other, (keypad.mask &&& bit (number key)).toNat.testBit other =
      (keypad.mask.toNat.testBit other && decide (key.val = other)) := by
    intro other
    rw [UInt16.toNat_and, toNat_bit, Nat.testBit_and, Nat.testBit_two_pow]
  rw [isDown, decide_eq_true (number_le key), Bool.true_and]
  cases down : keypad.mask.toNat.testBit key.val with
  | true =>
      refine bne_iff_ne.mpr fun zero => ?_
      have set := among key.val
      rw [zero, down] at set
      simp at set
  | false =>
      have none : keypad.mask &&& bit (number key) = 0 := by
        refine UInt16.toNat_inj.mp (Nat.eq_of_testBit_eq fun other => ?_)
        rw [among other]
        by_cases same : key.val = other
        · rw [← same, down]
          simp
        · simp [same]
      rw [none]
      rfl

theorem isDown_iff (keypad : Keypad) (byte : UInt8) :
    keypad.isDown byte = true ↔
      ∃ key, byte = number key ∧ keypad.mask.toNat.testBit key.val = true := by
  constructor
  · intro down
    have small : byte ≤ 0xf := of_decide_eq_true (Bool.and_eq_true_iff.mp down).1
    obtain ⟨key, rfl⟩ := exists_number small
    exact ⟨key, rfl, isDown_number keypad key ▸ down⟩
  · rintro ⟨key, rfl, set⟩
    rw [isDown_number, set]

def afterEvent (keypad : Keypad) : PadEvent → Keypad
  | .press key => keypad.press key
  | .release key => keypad.release key
  | .quit => keypad

end Keypad

theorem Machine.keypad_afterEvent {event : PadEvent} (machine : Machine) :
    (machine.afterEvent event).keypad = machine.keypad.afterEvent event := by
  cases event with
  | quit => rfl
  | press key =>
      simp only [Machine.afterEvent, Machine.press, Keypad.afterEvent]
      split
      case isTrue large => rw [Keypad.press, if_neg (UInt8.not_le.mpr large)]
      case isFalse small =>
          unfold resume
          split <;> rfl
  | release key =>
      simp only [Machine.afterEvent, Machine.release, Keypad.afterEvent]
      split
      case isTrue large => rw [Keypad.release, if_neg (UInt8.not_le.mpr large)]
      case isFalse small => rfl

theorem Machine.keypad_afterEvents (events : List PadEvent) (machine : Machine) :
    (events.foldl Machine.afterEvent machine).keypad =
      events.foldl Keypad.afterEvent machine.keypad := by
  induction events generalizing machine with
  | nil => rfl
  | cons event later ih =>
      rw [List.foldl_cons, ih, Machine.keypad_afterEvent]
      rfl

/-! ## Polls -/

/-- The keys that are down on the keypad are those that the keyboard holds. -/
structure Mirrors (keypad : Keypad) (keyboard : Keyboard) : Prop where
  down : ∀ key : Fin 16,
    keypad.mask.toNat.testBit key.val = (getElem keyboard.held key key.isLt).isSome

theorem mirrors_new (layout : KeyLayout) : Mirrors .idle (.new layout) := by
  refine ⟨fun key => ?_⟩
  simp [Keypad.idle, Keyboard.new]

theorem Mirrors.pressed {keypad : Keypad} {keyboard : Keyboard}
    (mirrors : Mirrors keypad keyboard) (key : Fin 16) (now : Nat) :
    Mirrors (keypad.press (Keypad.number key))
      { keyboard with held := keyboard.held.set key (some now) key.isLt } := by
  refine ⟨fun other => ?_⟩
  rw [Keypad.testBit_press, mirrors.down other]
  by_cases same : key = other
  · simp [same]
  · have apart : key.val ≠ other.val := fun equal => same (Fin.ext equal)
    simp [same, apart]

/-- Whether a key is held does not depend on when it was pressed. -/
theorem Mirrors.repeated {keypad : Keypad} {keyboard : Keyboard}
    (mirrors : Mirrors keypad keyboard) {key : Fin 16}
    (held : (getElem keyboard.held key key.isLt).isSome = true) (now : Nat) :
    Mirrors keypad { keyboard with held := keyboard.held.set key (some now) key.isLt } := by
  refine ⟨fun other => ?_⟩
  rw [mirrors.down other]
  by_cases same : key = other
  · subst same
    simpa using held
  · have apart : key.val ≠ other.val := fun equal => same (Fin.ext equal)
    simp [apart]

theorem Mirrors.notice {keypad : Keypad} {keyboard : Keyboard}
    (mirrors : Mirrors keypad keyboard) (now : Nat) (event : TerminalEvent) :
    Mirrors ((keyboard.notice now event).1.foldl Keypad.afterEvent keypad)
      (keyboard.notice now event).2 := by
  cases event with
  | escape | other => exact mirrors
  | character value =>
      simp only [Keyboard.notice]
      cases keyboard.layout.key? value with
      | none => exact mirrors
      | some key =>
          dsimp only
          cases holding : keyboard.held[key] with
          | none => exact mirrors.pressed key now
          | some since => exact mirrors.repeated (by rw [holding]; rfl) now

theorem Mirrors.noticeAll {keypad : Keypad} {keyboard : Keyboard}
    (mirrors : Mirrors keypad keyboard) (arrived : List (Nat × TerminalEvent)) :
    Mirrors ((keyboard.noticeAll arrived).1.foldl Keypad.afterEvent keypad)
      (keyboard.noticeAll arrived).2 := by
  induction arrived generalizing keypad keyboard with
  | nil => exact mirrors
  | cons first later ih =>
      obtain ⟨now, event⟩ := first
      rw [Keyboard.noticeAll, List.foldl_append]
      exact ih (mirrors.notice now event)

/-- What is left down once keys have gone up. -/
theorem testBit_releaseAll (keys : List (Fin 16)) (keypad : Keypad) (key : Fin 16) :
    ((keys.map fun released => .release (Keypad.number released)).foldl Keypad.afterEvent
        keypad).mask.toNat.testBit key.val = true ↔
      keypad.mask.toNat.testBit key.val = true ∧ key ∉ keys := by
  induction keys generalizing keypad with
  | nil => simp
  | cons released later ih =>
      rw [List.map_cons, List.foldl_cons, ih, Keypad.afterEvent, Keypad.testBit_release]
      rw [Bool.and_eq_true, decide_eq_true_iff, ne_comm, List.mem_cons, not_or, and_assoc]

theorem Mirrors.letGo {keypad : Keypad} {keyboard : Keyboard}
    (mirrors : Mirrors keypad keyboard) (now : Nat) :
    Mirrors ((keyboard.letGo now).1.foldl Keypad.afterEvent keypad) (keyboard.letGo now).2 := by
  refine ⟨fun key => ?_⟩
  have released := testBit_releaseAll ((List.finRange 16).filter (keyboard.overdue now)) keypad key
  rw [mirrors.down key] at released
  refine Bool.eq_iff_iff.mpr (released.trans ?_)
  simp only [Keyboard.letGo, List.mem_filter, List.mem_finRange, true_and]
  cases overdue : keyboard.overdue now key with
  | true => simp [overdue]
  | false => simp [overdue]

theorem Mirrors.poll {keypad : Keypad} {keyboard : Keyboard}
    (mirrors : Mirrors keypad keyboard) (arrived : List (Nat × TerminalEvent)) (closing : Nat) :
    Mirrors ((keyboard.poll arrived closing).1.foldl Keypad.afterEvent keypad)
      (keyboard.poll arrived closing).2 := by
  rw [Keyboard.poll, List.foldl_append]
  exact (mirrors.noticeAll arrived).letGo closing

/-! ## Delivery -/

/-- A poll tells of keys that there are, and of the wish to quit. -/
theorem concernsKey_of_notice {keyboard : Keyboard} {now : Nat} {event : TerminalEvent}
    {told : PadEvent} (among : told ∈ (keyboard.notice now event).1) :
    told = .quit ∨ told.concernsKey = true := by
  cases event with
  | escape => exact .inl (List.mem_singleton.mp among)
  | other => cases among
  | character value =>
      simp only [Keyboard.notice] at among
      cases found : keyboard.layout.key? value with
      | none =>
          rw [found] at among
          cases among
      | some key =>
          rw [found] at among
          dsimp only at among
          split at among
          · rw [List.mem_singleton.mp among]
            exact .inr (decide_eq_true (Keypad.number_le key))
          · cases among

theorem concernsKey_of_noticeAll {keyboard : Keyboard} {arrived : List (Nat × TerminalEvent)}
    {told : PadEvent} (among : told ∈ (keyboard.noticeAll arrived).1) :
    told = .quit ∨ told.concernsKey = true := by
  induction arrived generalizing keyboard with
  | nil => cases among
  | cons first later ih =>
      rcases List.mem_append.mp among with now | after
      · exact concernsKey_of_notice now
      · exact ih after

theorem concernsKey_of_poll {keyboard : Keyboard} {arrived : List (Nat × TerminalEvent)}
    {closing : Nat} {told : PadEvent} (among : told ∈ (keyboard.poll arrived closing).1) :
    told = .quit ∨ told.concernsKey = true := by
  rcases List.mem_append.mp among with noticed | released
  · exact concernsKey_of_noticeAll noticed
  · obtain ⟨key, -, rfl⟩ := List.mem_map.mp released
    exact .inr (decide_eq_true (Keypad.number_le key))

/-- The machine takes all that a poll tells it, unless that has it quit. -/
theorem deliver_poll (machine : Machine) (keyboard : Keyboard)
    (arrived : List (Nat × TerminalEvent)) (closing : Nat) :
    let events := (keyboard.poll arrived closing).1
    (∃ next, machine.deliver events = (.ok false, next)) ∨
      machine.deliver events = (.ok true, events.foldl Machine.afterEvent machine) := by
  intro events
  rw [Machine.deliver_eq]
  cases refused : events.find? fun event => !event.concernsKey with
  | none =>
      have all : events.takeWhile PadEvent.concernsKey = events := by
        have known : ∀ event ∈ events, event.concernsKey = true := by
          simpa using List.find?_eq_none.mp refused
        simpa using @List.takeWhile_append_of_pos _ _ events [] known
      exact .inr (by rw [all])
  | some event =>
      have other := List.find?_some refused
      rcases concernsKey_of_poll (List.mem_of_find?_eq_some refused) with rfl | known
      · exact .inl ⟨_, rfl⟩
      · rw [known] at other
        cases other

end ChipEight
