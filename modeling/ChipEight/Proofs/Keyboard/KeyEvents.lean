import ChipEight.Proofs.Run.Typed
import Mathlib.Data.List.Chain

/-!
# Events of a keyboard

What a keyboard tells of each key is a press, a release, a press and so on. In between the key is
held since its latest press, and the first poll that ends the hold time or more after that press
lets go of it.
-/

set_option autoImplicit false

namespace ChipEight

/-! ## Moves of a key -/

/-- Whether an event tells that a key goes down, or that it goes up. -/
def PadEvent.goesDown? (key : Fin 16) : PadEvent → Option Bool
  | .press pressed => if pressed = Keypad.number key then some true else none
  | .release released => if released = Keypad.number key then some false else none
  | .quit => none

def movesOf (key : Fin 16) (told : List PadEvent) : List Bool :=
  told.filterMap (PadEvent.goesDown? key)

/-- Down, up, down and so on. -/
structure Alternating (moves : List Bool) : Prop where
  changes : moves.IsChain (· ≠ ·)
  downFirst : moves.head? ≠ some false

def DownAfter (key : Fin 16) (told : List PadEvent) : Prop :=
  (movesOf key told).getLast? = some true

instance (key : Fin 16) (told : List PadEvent) : Decidable (DownAfter key told) :=
  inferInstanceAs (Decidable (_ = _))

theorem movesOf_append (key : Fin 16) (earlier later : List PadEvent) :
    movesOf key (earlier ++ later) = movesOf key earlier ++ movesOf key later :=
  List.filterMap_append

theorem Alternating.concat {moves : List Bool} (alternating : Alternating moves) {down : Bool}
    (turn : moves.getLast? = some true ↔ down = false) : Alternating (moves ++ [down]) := by
  constructor
  · refine alternating.changes.append (List.isChain_singleton down) fun last isLast next isNext => ?_
    cases Option.some.inj isNext
    rintro rfl
    cases last with
    | true => exact absurd (turn.mp isLast) (by decide)
    | false => exact absurd (isLast.symm.trans (turn.mpr rfl)) (by decide)
  · cases moves with
    | nil =>
        rintro ⟨⟩
        exact absurd (turn.mpr rfl) (by decide)
    | cons first later => exact alternating.downFirst

theorem movesOf_press (key other : Fin 16) :
    movesOf other [.press (Keypad.number key)] = if key = other then [true] else [] := by
  by_cases same : key = other
  · rw [if_pos same, same]
    simp [movesOf, PadEvent.goesDown?]
  · have apart : Keypad.number key ≠ Keypad.number other :=
      fun equal => same (Keypad.number_injective equal)
    simp [movesOf, PadEvent.goesDown?, same, apart]

theorem movesOf_releases (key : Fin 16) {keys : List (Fin 16)} (distinct : keys.Nodup) :
    (key ∈ keys →
      movesOf key (keys.map fun released => .release (Keypad.number released)) = [false]) ∧
    (key ∉ keys →
      movesOf key (keys.map fun released => .release (Keypad.number released)) = []) := by
  have moves : movesOf key (keys.map fun released => .release (Keypad.number released)) =
      (keys.filter (· == key)).map fun _ => false := by
    clear distinct
    induction keys with
    | nil => rfl
    | cons released later ih =>
        by_cases same : released = key
        · subst same
          simpa [movesOf, PadEvent.goesDown?] using ih
        · have apart : Keypad.number released ≠ Keypad.number key :=
            fun equal => same (Keypad.number_injective equal)
          simpa [movesOf, PadEvent.goesDown?, apart, same] using ih
  rw [moves, List.filter_beq, distinct.count]
  exact ⟨fun among => by rw [if_pos among]; rfl, fun absent => by rw [if_neg absent]; rfl⟩

/-- What events tell of a key that was held, or not, and what becomes of its latest press. -/
inductive KeyMove (key : Fin 16) (latest held : Option Nat) :
    List PadEvent → Option Nat → Option Nat → Prop where
  | rests {told : List PadEvent} (silent : movesOf key told = []) :
      KeyMove key latest held told latest held
  | pressed {told : List PadEvent} (now : Nat) (up : held = none)
      (down : movesOf key told = [true]) : KeyMove key latest held told (some now) (some now)
  | repeated {told : List PadEvent} (now : Nat) (down : held ≠ none)
      (silent : movesOf key told = []) : KeyMove key latest held told (some now) (some now)
  | released {told : List PadEvent} (down : held ≠ none) (up : movesOf key told = [false]) :
      KeyMove key latest held told latest none

/-- What has been told of a key alternates, and the key is held, since its latest press, exactly
if the last thing told of it is that it has gone down. -/
structure KeyTold (key : Fin 16) (told : List PadEvent) (latest held : Option Nat) : Prop where
  alternating : Alternating (movesOf key told)
  down : DownAfter key told ↔ held ≠ none
  since : ∀ time, held = some time → latest = some time

theorem KeyTold.move {key : Fin 16} {told later : List PadEvent}
    {latest held latestThen heldThen : Option Nat} (before : KeyTold key told latest held)
    (move : KeyMove key latest held later latestThen heldThen) :
    KeyTold key (told ++ later) latestThen heldThen := by
  obtain ⟨alternating, down, since⟩ := before
  have moves := movesOf_append key told later
  cases move with
  | rests silent =>
      rw [silent, List.append_nil] at moves
      exact ⟨moves ▸ alternating, by rw [DownAfter, moves]; exact down, since⟩
  | pressed now up goesDown =>
      rw [goesDown] at moves
      have turn : (movesOf key told).getLast? = some true ↔ true = false :=
        iff_of_false (fun was => down.mp was up) (by decide)
      refine ⟨moves ▸ alternating.concat turn, ?_, fun _ => id⟩
      rw [DownAfter, moves, List.getLast?_concat]
      exact iff_of_true rfl nofun
  | repeated now wasDown silent =>
      rw [silent, List.append_nil] at moves
      refine ⟨moves ▸ alternating, ?_, fun _ => id⟩
      rw [DownAfter, moves]
      exact iff_of_true (down.mpr wasDown) nofun
  | released wasDown goesUp =>
      rw [goesUp] at moves
      have turn : (movesOf key told).getLast? = some true ↔ false = false :=
        iff_of_true (down.mpr wasDown) rfl
      refine ⟨moves ▸ alternating.concat turn, ?_, nofun⟩
      rw [DownAfter, moves, List.getLast?_concat]
      exact iff_of_false (by decide) fun held => held rfl

/-! ## Arrivals and polls -/

namespace KeyLayout

theorem toNat_toUpper {value : Char} (small : 'a'.val ≤ value.val ∧ value.val ≤ 'z'.val) :
    let capital := value.toUpper.val.toNat
    capital + 32 = value.val.toNat ∧ 65 ≤ capital ∧ capital ≤ 90 := by
  have least : 97 ≤ value.val.toNat := UInt32.le_iff_toNat_le.mp small.1
  have most : value.val.toNat ≤ 122 := UInt32.le_iff_toNat_le.mp small.2
  have lowered : value.toUpper = _ := dif_pos small
  have number : value.toUpper.val.toNat = (value.val.toNat + 4294967264) % 4294967296 := by
    rw [lowered]
    exact UInt32.toNat_add _ _
  omega

theorem toLower_toUpper (value : Char) : value.toUpper.toLower = value.toLower := by
  by_cases small : 'a'.val ≤ value.val ∧ value.val ≤ 'z'.val
  · obtain ⟨shifted, least, most⟩ := toNat_toUpper small
    have capital : 'A'.val ≤ value.toUpper.val ∧ value.toUpper.val ≤ 'Z'.val :=
      ⟨UInt32.le_iff_toNat_le.mpr least, UInt32.le_iff_toNat_le.mpr most⟩
    have notCapital : ¬ ('A'.val ≤ value.val ∧ value.val ≤ 'Z'.val) := fun within => by
      have high : value.val.toNat ≤ 90 := UInt32.le_iff_toNat_le.mp within.2
      omega
    have raised : value.toUpper.toLower.val = value.toUpper.val + 32 :=
      congrArg Char.val (dif_pos capital)
    have back : (value.toUpper.val + 32).toNat = value.val.toNat := by
      rw [UInt32.toNat_add, ← shifted]
      exact Nat.mod_eq_of_lt (show value.toUpper.val.toNat + 32 < 4294967296 by omega)
    have kept : value.toLower = value := dif_neg notCapital
    rw [kept]
    exact Char.ext (raised.trans (UInt32.toNat_inj.mp back))
  · have unchanged : value.toUpper = value := dif_neg small
    rw [unchanged]

theorem key?_toUpper (layout : KeyLayout) (value : Char) :
    layout.key? value.toUpper = layout.key? value := by
  rw [key?, key?, toLower_toUpper]

theorem pressTimes_append (layout : KeyLayout) (key : Fin 16)
    (earlier later : List (Nat × TerminalEvent)) :
    layout.pressTimes key (earlier ++ later) =
      layout.pressTimes key earlier ++ layout.pressTimes key later := by
  rw [pressTimes, List.filter_append, List.map_append, ← pressTimes, ← pressTimes]

theorem pressTimes_of_presses {layout : KeyLayout} {key : Fin 16} {event : TerminalEvent}
    (pressed : layout.presses key event = true) (now : Nat) :
    layout.pressTimes key [(now, event)] = [now] := by
  simp [pressTimes, pressed]

theorem pressTimes_of_not_presses {layout : KeyLayout} {key : Fin 16} {event : TerminalEvent}
    (unpressed : layout.presses key event = false) (now : Nat) :
    layout.pressTimes key [(now, event)] = [] := by
  simp [pressTimes, unpressed]

theorem presses_unique {layout : KeyLayout} {key other : Fin 16} {event : TerminalEvent}
    (pressed : layout.presses key event = true) :
    layout.presses other event = decide (key = other) := by
  cases event with
  | escape | other => cases pressed
  | character value =>
      have found : layout.key? value = some key := of_decide_eq_true pressed
      simp [presses, found]

end KeyLayout

namespace Keyboard

theorem notice_of_presses {keyboard : Keyboard} {key : Fin 16} {event : TerminalEvent}
    (pressed : keyboard.layout.presses key event = true) (now : Nat) :
    keyboard.notice now event =
      (if getElem keyboard.held key key.isLt = none then [.press (Keypad.number key)] else [],
        { keyboard with held := keyboard.held.set key (some now) key.isLt }) := by
  cases event with
  | escape | other => cases pressed
  | character value =>
      have found : keyboard.layout.key? value = some key := of_decide_eq_true pressed
      simp [notice, found, Keypad.number]

theorem notice_of_not_presses {keyboard : Keyboard} {event : TerminalEvent}
    (unmapped : ∀ key, keyboard.layout.presses key event = false) (now : Nat) :
    keyboard.notice now event = (if event = .escape then [.quit] else [], keyboard) := by
  cases event with
  | escape | other => rfl
  | character value =>
      cases found : keyboard.layout.key? value with
      | none => simp [notice, found]
      | some key =>
          have pressed := unmapped key
          simp [KeyLayout.presses, found] at pressed

theorem keyMove_notice (keyboard : Keyboard) (now : Nat) (event : TerminalEvent)
    (arrived : List (Nat × TerminalEvent)) (key : Fin 16) :
    KeyMove key (keyboard.layout.pressTimes key arrived).getLast?
      (getElem keyboard.held key key.isLt) (keyboard.notice now event).1
      (keyboard.layout.pressTimes key (arrived ++ [(now, event)])).getLast?
      (getElem (keyboard.notice now event).2.held key key.isLt) := by
  rw [KeyLayout.pressTimes_append, held_notice]
  cases pressed : keyboard.layout.presses key event with
  | true =>
      rw [KeyLayout.pressTimes_of_presses pressed, List.getLast?_concat, if_pos rfl,
        notice_of_presses pressed]
      by_cases up : getElem keyboard.held key key.isLt = none
      · exact .pressed now up (by rw [if_pos up, movesOf_press, if_pos rfl])
      · exact .repeated now up (by rw [if_neg up]; rfl)
  | false =>
      rw [KeyLayout.pressTimes_of_not_presses pressed, List.append_nil]
      refine .rests ?_
      by_cases mapped : ∃ other, keyboard.layout.presses other event = true
      · obtain ⟨other, found⟩ := mapped
        rw [KeyLayout.presses_unique found] at pressed
        rw [notice_of_presses found]
        dsimp only
        split
        · rw [movesOf_press, if_neg (of_decide_eq_false pressed)]
        · rfl
      · have unmapped : ∀ other, keyboard.layout.presses other event = false := by
          simpa using mapped
        rw [notice_of_not_presses unmapped]
        dsimp only
        split <;> rfl

theorem overdue_iff (keyboard : Keyboard) (now : Nat) (key : Fin 16) :
    keyboard.overdue now key = true ↔
      ∃ since, getElem keyboard.held key key.isLt = some since ∧ since + holdTime ≤ now := by
  have positive : 0 < holdTime := by decide
  have same : keyboard.held[key] = getElem keyboard.held key key.isLt := rfl
  rw [overdue, same]
  cases getElem keyboard.held key key.isLt with
  | none => exact iff_of_false Bool.false_ne_true nofun
  | some since =>
      have late : holdTime ≤ now - since ↔ since + holdTime ≤ now := by omega
      simp [late]

theorem keyMove_letGo (keyboard : Keyboard) (now : Nat) (latest : Option Nat) (key : Fin 16) :
    KeyMove key latest (getElem keyboard.held key key.isLt) (keyboard.letGo now).1 latest
      (getElem (keyboard.letGo now).2.held key key.isLt) := by
  obtain ⟨released, kept⟩ :=
    movesOf_releases key ((List.nodup_finRange 16).filter (keyboard.overdue now))
  rw [List.mem_filter, and_iff_right (List.mem_finRange key)] at released kept
  have left : getElem (keyboard.letGo now).2.held key key.isLt =
      if keyboard.overdue now key = true then none else getElem keyboard.held key key.isLt := by
    simp [letGo]
  rw [left]
  by_cases late : keyboard.overdue now key = true
  · obtain ⟨since, held, -⟩ := (keyboard.overdue_iff now key).mp late
    rw [if_pos late]
    refine .released ?_ (released late)
    rw [held]
    exact Option.some_ne_none since
  · rw [if_neg late]
    exact .rests (kept late)

/-- What a keyboard holds and has told once these events have arrived on it. -/
structure Tells (layout : KeyLayout) (arrived : List (Nat × TerminalEvent))
    (told : List PadEvent) (keyboard : Keyboard) : Prop where
  sameLayout : keyboard.layout = layout
  keys : ∀ key : Fin 16, KeyTold key told (layout.pressTimes key arrived).getLast?
    (getElem keyboard.held key key.isLt)
  known : ∀ event ∈ told, event = .quit ∨ event.concernsKey = true

/-- What a keyboard tells when an event arrives, after all that it has told before. -/
structure Answers (layout : KeyLayout) (told : List PadEvent) (event : TerminalEvent)
    (answer : List PadEvent) : Prop where
  escape : event = .escape → answer = [.quit]
  pressed : ∀ key, layout.presses key event = true →
    answer = if DownAfter key told then [] else [.press (Keypad.number key)]
  unmapped : (∀ key, layout.presses key event = false) → event ≠ .escape → answer = []

variable {layout : KeyLayout} {arrived : List (Nat × TerminalEvent)} {told : List PadEvent}
  {keyboard : Keyboard}

theorem tells_new (layout : KeyLayout) : (new layout).Tells layout [] [] where
  sameLayout := rfl
  keys key := by
    have up : getElem (new layout).held key key.isLt = none := Vector.getElem_replicate key.isLt
    rw [up]
    exact ⟨⟨.nil, nofun⟩, iff_of_false nofun fun held => held rfl, nofun⟩
  known := nofun

theorem Tells.notice (before : keyboard.Tells layout arrived told) (now : Nat)
    (event : TerminalEvent) :
    (keyboard.notice now event).2.Tells layout (arrived ++ [(now, event)])
      (told ++ (keyboard.notice now event).1) := by
  obtain ⟨rfl, keys, known⟩ := before
  refine ⟨layout_notice keyboard now event, fun key => ?_, fun noted among => ?_⟩
  · exact (keys key).move (keyboard.keyMove_notice now event arrived key)
  · rcases List.mem_append.mp among with earlier | later
    · exact known noted earlier
    · exact concernsKey_of_notice later

theorem Tells.noticeAll (before : keyboard.Tells layout arrived told)
    (later : List (Nat × TerminalEvent)) :
    (keyboard.noticeAll later).2.Tells layout (arrived ++ later)
      (told ++ (keyboard.noticeAll later).1) := by
  induction later generalizing keyboard arrived told with
  | nil =>
      rw [List.append_nil]
      exact (List.append_nil told).symm ▸ before
  | cons first later ih =>
      have rest := ih (before.notice first.1 first.2)
      rw [List.append_assoc, List.append_assoc] at rest
      exact rest

theorem Tells.letGo (before : keyboard.Tells layout arrived told) (now : Nat) :
    (keyboard.letGo now).2.Tells layout arrived (told ++ (keyboard.letGo now).1) := by
  obtain ⟨sameLayout, keys, known⟩ := before
  refine ⟨(layout_letGo keyboard now).trans sameLayout, fun key => ?_, fun noted among => ?_⟩
  · exact (keys key).move (keyboard.keyMove_letGo now _ key)
  · rcases List.mem_append.mp among with earlier | later
    · exact known noted earlier
    · obtain ⟨key, -, rfl⟩ := List.mem_map.mp later
      exact .inr (decide_eq_true (Keypad.number_le key))

theorem Tells.poll (before : keyboard.Tells layout arrived told)
    (later : List (Nat × TerminalEvent)) (closing : Nat) :
    (keyboard.poll later closing).2.Tells layout (arrived ++ later)
      (told ++ (keyboard.poll later closing).1) := by
  have closed := (before.noticeAll later).letGo closing
  rw [List.append_assoc] at closed
  exact closed

theorem Tells.answers (before : keyboard.Tells layout arrived told) (now : Nat)
    (event : TerminalEvent) : Answers layout told event (keyboard.notice now event).1 := by
  obtain ⟨rfl, keys, -⟩ := before
  constructor
  · rintro rfl
    rfl
  · intro key pressed
    have down := (keys key).down
    rw [notice_of_presses pressed]
    by_cases up : getElem keyboard.held key key.isLt = none
    · rw [if_pos up, if_neg fun was => down.mp was up]
    · rw [if_neg up, if_pos (down.mpr up)]
  · intro unmapped notEscape
    rw [notice_of_not_presses unmapped, if_neg notEscape]

theorem Tells.overdue_iff (before : keyboard.Tells layout arrived told) (now : Nat)
    (key : Fin 16) :
    keyboard.overdue now key = true ↔ DownAfter key told ∧
      ∃ since, (layout.pressTimes key arrived).getLast? = some since ∧
        since + holdTime ≤ now := by
  obtain ⟨-, down, since⟩ := before.keys key
  rw [Keyboard.overdue_iff, down]
  constructor
  · rintro ⟨time, held, late⟩
    rw [held]
    exact ⟨Option.some_ne_none _, time, since time held, late⟩
  · rintro ⟨held, time, latest, late⟩
    obtain ⟨known, isHeld⟩ := Option.ne_none_iff_exists'.mp held
    cases (since known isHeld).symm.trans latest
    exact ⟨time, isHeld, late⟩

theorem noticeAll_concat (keyboard : Keyboard) (arrived : List (Nat × TerminalEvent)) (now : Nat)
    (event : TerminalEvent) :
    (keyboard.noticeAll (arrived ++ [(now, event)])).1 =
      (keyboard.noticeAll arrived).1 ++ ((keyboard.noticeAll arrived).2.notice now event).1 := by
  induction arrived generalizing keyboard with
  | nil => exact List.append_nil _
  | cons first later ih =>
      have rest := ih (keyboard.notice first.1 first.2).2
      exact (congrArg ((keyboard.notice first.1 first.2).1 ++ ·) rest).trans
        (List.append_assoc _ _ _).symm

end Keyboard

namespace TypedInput

def arrivedBy (input : TypedInput) (polls : Nat) : List (Nat × TerminalEvent) :=
  (List.range polls).flatMap input.arrivals

/-- All that the first polls have told. -/
def toldBy (input : TypedInput) (polls : Nat) : List PadEvent :=
  (List.range polls).flatMap fun poll => (input.polled poll).told

theorem told_polled {input : TypedInput} (fresh : input.polls = 0) (polls : Nat) :
    (input.polled polls).told =
      ((input.polled polls).keyboard.poll (input.arrivals polls) (input.closing polls)).1 := by
  have now : (input.polled polls).polls = polls := by rw [polls_polled, fresh, Nat.zero_add]
  rw [told, now, arrivals_polled, closing_polled]

theorem tells_polled {input : TypedInput} {layout : KeyLayout} (fresh : input.polls = 0)
    (new : input.keyboard = .new layout) (polls : Nat) :
    (input.polled polls).keyboard.Tells layout (input.arrivedBy polls) (input.toldBy polls) := by
  induction polls with
  | zero => exact new ▸ Keyboard.tells_new layout
  | succ polls ih =>
      have next := ih.poll (input.arrivals polls) (input.closing polls)
      rw [← told_polled fresh, ← keyboard_polled_succ fresh] at next
      rw [arrivedBy, toldBy, List.range_succ, List.flatMap_append, List.flatMap_append,
        List.flatMap_singleton, List.flatMap_singleton]
      exact next

/-- At every moment of every sequence of polls, before and after each event that arrives: the
presses and releases of each key alternate, and the key is held, since its latest press, exactly
between the one and the other. A press of a key that is up tells of it and a press of a key that
is down does not, escape quits, and nothing else tells of anything. The poll then ends with the
keys that are down and have not been pressed for the hold time, in ascending order. None of this
depends on what the clock shows. -/
theorem keyEvents_in_turn (layout : KeyLayout) (arrivals : Nat → List (Nat × TerminalEvent))
    (closing : Nat → Nat) (polls : Nat) (arrived : List (Nat × TerminalEvent)) :
    let input : TypedInput := { keyboard := .new layout, arrivals, closing }
    let before := (input.polled polls).keyboard
    let answers := (before.noticeAll arrived).1
    let past := input.arrivedBy polls ++ arrived
    let told := input.toldBy polls ++ answers
    (before.noticeAll arrived).2.Tells layout past told ∧
    (∀ now event, ∃ answer, Keyboard.Answers layout told event answer ∧
      (before.noticeAll (arrived ++ [(now, event)])).1 = answers ++ answer) ∧
    (∀ value, layout.key? value.toUpper = layout.key? value) ∧
    ∀ time, ∃ released : List (Fin 16), released.Pairwise (· < ·) ∧
      (before.poll arrived time).1 =
        answers ++ released.map (fun key => .release (Keypad.number key)) ∧
      ∀ key, key ∈ released ↔ DownAfter key told ∧
        ∃ since, (layout.pressTimes key past).getLast? = some since ∧
          since + 120000000 ≤ time := by
  intro input before answers past told
  have tells : (before.noticeAll arrived).2.Tells layout past told :=
    (tells_polled rfl rfl polls).noticeAll arrived
  refine ⟨tells, fun now event => ?_, layout.key?_toUpper, fun time => ?_⟩
  · exact ⟨_, tells.answers now event, before.noticeAll_concat arrived now event⟩
  · refine ⟨(List.finRange 16).filter ((before.noticeAll arrived).2.overdue time),
      (List.pairwise_lt_finRange 16).filter _, rfl, fun key => ?_⟩
    rw [List.mem_filter, and_iff_right (List.mem_finRange key)]
    exact tells.overdue_iff time key

/-- A key that is down is pressed again, in upper case, just before the end of the hold time. That
tells of nothing and puts the release off. -/
theorem keyEvents_in_turn_repeat :
    let arrivals : Nat → List (Nat × TerminalEvent)
      | 0 => [(0, .character 'a')]
      | _ => []
    let input : TypedInput :=
      { keyboard := .new .literal, arrivals, closing := fun poll => 120000000 * poll }
    let before := (input.polled 1).keyboard
    let again : List (Nat × TerminalEvent) := [(119999999, .character 'A')]
    KeyLayout.literal.key? 'A' = some 10 ∧ input.toldBy 1 = [.press 10] ∧
      (before.noticeAll again).1 = [] ∧
      .release 10 ∉ (before.poll again 239999998).1 ∧
      .release 10 ∈ (before.poll again 239999999).1 := by
  intro arrivals input before again
  obtain ⟨-, answered, upper, -⟩ := keyEvents_in_turn .literal arrivals input.closing 1 []
  obtain ⟨-, -, -, closes⟩ := keyEvents_in_turn .literal arrivals input.closing 1 again
  have mapped : KeyLayout.literal.key? 'A' = some 10 := (upper 'a').trans (by decide)
  obtain ⟨answer, answers, told⟩ := answered 119999999 (.character 'A')
  have silent : (before.noticeAll again).1 = [] :=
    told.trans ((answers.pressed 10 (by decide)).trans (if_pos (by decide)))
  have latest : (KeyLayout.literal.pressTimes 10 (input.arrivedBy 1 ++ again)).getLast? =
      some 119999999 := by decide
  refine ⟨mapped, by decide, silent, fun among => ?_, ?_⟩
  · obtain ⟨released, -, closed, due⟩ := closes 239999998
    rw [closed, silent] at among
    obtain ⟨key, isReleased, same⟩ := List.mem_map.mp among
    cases Keypad.number_injective (PadEvent.release.inj same : Keypad.number key = Keypad.number 10)
    obtain ⟨-, since, pressed, late⟩ := (due 10).mp isReleased
    cases latest.symm.trans pressed
    exact absurd late (by decide)
  · obtain ⟨released, -, closed, due⟩ := closes 239999999
    have isReleased : 10 ∈ released :=
      (due 10).mpr ⟨by decide, 119999999, latest, by decide⟩
    rw [closed]
    exact List.mem_append_right _ (List.mem_map.mpr ⟨10, isReleased, rfl⟩)

end TypedInput

end ChipEight
