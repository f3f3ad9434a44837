import ChipEight.Run.Device

/-!
# How long a key is held

A key is held from the poll that first tells of it to the first poll that ends at least the
hold time after its latest press, whatever the times of the presses and of the polls.
-/

set_option autoImplicit false

namespace ChipEight

/-! ## Presses -/

namespace KeyLayout

def presses (layout : KeyLayout) (key : Fin 16) : TerminalEvent → Bool
  | .character value => layout.key? value = some key
  | .escape | .other => false

/-- When events press a key, the oldest press first. -/
def pressTimes (layout : KeyLayout) (key : Fin 16) (arrived : List (Nat × TerminalEvent)) :
    List Nat :=
  (arrived.filter fun entry => layout.presses key entry.2).map Prod.fst

end KeyLayout

namespace Keyboard

theorem layout_notice (keyboard : Keyboard) (now : Nat) (event : TerminalEvent) :
    (keyboard.notice now event).2.layout = keyboard.layout := by
  cases event with
  | escape | other => rfl
  | character value =>
      simp only [notice]
      cases keyboard.layout.key? value <;> rfl

theorem held_notice (keyboard : Keyboard) (now : Nat) (event : TerminalEvent) (key : Fin 16) :
    getElem (keyboard.notice now event).2.held key key.isLt =
      if keyboard.layout.presses key event then some now
      else getElem keyboard.held key key.isLt := by
  cases event with
  | escape | other => rfl
  | character value =>
      rcases found : keyboard.layout.key? value with _ | pressed
      · simp [notice, KeyLayout.presses, found]
      · by_cases same : pressed = key
        · simp [notice, KeyLayout.presses, found, same]
        · have apart : pressed.val ≠ key.val := fun equal => same (Fin.ext equal)
          simp [notice, KeyLayout.presses, found, same, apart]

theorem layout_noticeAll (keyboard : Keyboard) (arrived : List (Nat × TerminalEvent)) :
    (keyboard.noticeAll arrived).2.layout = keyboard.layout := by
  induction arrived generalizing keyboard with
  | nil => rfl
  | cons first later ih => exact (ih _).trans (keyboard.layout_notice first.1 first.2)

theorem held_noticeAll (keyboard : Keyboard) (arrived : List (Nat × TerminalEvent))
    (key : Fin 16) :
    getElem (keyboard.noticeAll arrived).2.held key key.isLt =
      (keyboard.layout.pressTimes key arrived).getLast?.or
        (getElem keyboard.held key key.isLt) := by
  induction arrived generalizing keyboard with
  | nil => rfl
  | cons first later ih =>
      obtain ⟨now, event⟩ := first
      have rest := ih (keyboard.notice now event).2
      rw [layout_notice, held_notice] at rest
      rw [noticeAll, KeyLayout.pressTimes, List.filter_cons]
      refine rest.trans ?_
      cases pressed : keyboard.layout.presses key event with
      | false => rfl
      | true =>
          simp only [if_true, List.map_cons, List.getLast?_cons]
          rw [KeyLayout.pressTimes]
          cases (List.map Prod.fst (later.filter fun entry =>
            keyboard.layout.presses key entry.2)).getLast? <;> rfl

theorem held_letGo (keyboard : Keyboard) (now : Nat) (key : Fin 16) :
    getElem (keyboard.letGo now).2.held key key.isLt =
      (getElem keyboard.held key key.isLt).filter fun since => decide (now < since + holdTime) := by
  have positive : 0 < holdTime := by decide
  rcases held : keyboard.held[key] with _ | since
  · simp [letGo, overdue, show keyboard.held[key.val] = none from held]
  · have soon : holdTime ≤ now - since ↔ ¬ now < since + holdTime := by omega
    by_cases within : now < since + holdTime
    · simp [letGo, overdue, show keyboard.held[key.val] = some since from held, soon, within,
        Option.filter]
    · simp [letGo, overdue, show keyboard.held[key.val] = some since from held, soon, within,
        Option.filter]

theorem layout_letGo (keyboard : Keyboard) (now : Nat) :
    (keyboard.letGo now).2.layout = keyboard.layout := by
  simp only [letGo]

theorem layout_poll (keyboard : Keyboard) (arrived : List (Nat × TerminalEvent))
    (closing : Nat) : (keyboard.poll arrived closing).2.layout = keyboard.layout :=
  (layout_letGo _ closing).trans (keyboard.layout_noticeAll arrived)

theorem held_poll (keyboard : Keyboard) (arrived : List (Nat × TerminalEvent)) (closing : Nat)
    (key : Fin 16) :
    getElem (keyboard.poll arrived closing).2.held key key.isLt =
      ((keyboard.layout.pressTimes key arrived).getLast?.or
        (getElem keyboard.held key key.isLt)).filter fun since =>
          decide (closing < since + holdTime) := by
  rw [← held_noticeAll]
  exact held_letGo _ closing key

end Keyboard

/-! ## Many polls -/

namespace TypedInput

/-- The input once it has been polled so many times. -/
def polled (input : TypedInput) : Nat → TypedInput
  | 0 => input
  | polls + 1 => (InputDevice.typed.poll (input.polled polls)).2

variable (input : TypedInput)

theorem polls_polled (polls : Nat) : (input.polled polls).polls = input.polls + polls := by
  induction polls with
  | zero => rfl
  | succ polls ih => exact congrArg (· + 1) ih

theorem arrivals_polled (polls : Nat) : (input.polled polls).arrivals = input.arrivals := by
  induction polls with
  | zero => rfl
  | succ polls ih => exact ih

theorem closing_polled (polls : Nat) : (input.polled polls).closing = input.closing := by
  induction polls with
  | zero => rfl
  | succ polls ih => exact ih

theorem layout_polled (polls : Nat) :
    (input.polled polls).keyboard.layout = input.keyboard.layout := by
  induction polls with
  | zero => rfl
  | succ polls ih => exact (Keyboard.layout_poll _ _ _).trans ih

def pressTimes (key : Fin 16) (poll : Nat) : List Nat :=
  input.keyboard.layout.pressTimes key (input.arrivals poll)

/-- The latest press of a key that the first polls have seen. -/
def latestPress? (key : Fin 16) (polls : Nat) : Option Nat :=
  ((List.range polls).flatMap (input.pressTimes key)).getLast?

/-- A poll ends within the hold time of the latest press that has been seen by then. -/
def Recent (key : Fin 16) (poll : Nat) : Prop :=
  ∃ since, input.latestPress? key (poll + 1) = some since ∧
    input.closing poll < since + Keyboard.holdTime

/-- One of the first polls has told of the key, and none of them from there on has ended the
hold time or more after the latest press. -/
def HeldAfter (key : Fin 16) (polls : Nat) : Prop :=
  ∃ first < polls, input.pressTimes key first ≠ [] ∧
    ∀ poll, first ≤ poll → poll < polls → input.Recent key poll

theorem latestPress?_succ (key : Fin 16) (poll : Nat) :
    input.latestPress? key (poll + 1) =
      (input.pressTimes key poll).getLast?.or (input.latestPress? key poll) := by
  rw [latestPress?, List.range_succ, List.flatMap_append, List.flatMap_singleton,
    List.getLast?_append]
  rfl

variable {input}

theorem heldAfter_succ {key : Fin 16} {polls : Nat} :
    input.HeldAfter key (polls + 1) ↔
      (input.pressTimes key polls ≠ [] ∨ input.HeldAfter key polls) ∧
        input.Recent key polls := by
  constructor
  · rintro ⟨first, early, pressed, recent⟩
    refine ⟨?_, recent polls (Nat.le_of_lt_succ early) (Nat.lt_succ_self polls)⟩
    rcases Nat.lt_succ_iff_lt_or_eq.mp early with before | rfl
    · exact .inr ⟨first, before, pressed, fun poll since within =>
        recent poll since (Nat.lt_succ_of_lt within)⟩
    · exact .inl pressed
  · rintro ⟨pressed | ⟨first, early, pressed, recent⟩, last⟩
    · refine ⟨polls, Nat.lt_succ_self polls, pressed, fun poll since within => ?_⟩
      rw [Nat.le_antisymm (Nat.le_of_lt_succ within) since]
      exact last
    · refine ⟨first, Nat.lt_succ_of_lt early, pressed, fun poll since within => ?_⟩
      rcases Nat.lt_succ_iff_lt_or_eq.mp within with before | rfl
      · exact recent poll since before
      · exact last

theorem keyboard_polled_succ (fresh : input.polls = 0) (polls : Nat) :
    (input.polled (polls + 1)).keyboard =
      ((input.polled polls).keyboard.poll (input.arrivals polls) (input.closing polls)).2 := by
  have now : (input.polled polls).polls = polls := by rw [polls_polled, fresh, Nat.zero_add]
  have polled : (input.polled (polls + 1)).keyboard =
      ((input.polled polls).keyboard.poll ((input.polled polls).arrivals (input.polled polls).polls)
        ((input.polled polls).closing (input.polled polls).polls)).2 := rfl
  rw [polled, now, arrivals_polled, closing_polled]

theorem held_polled_succ (fresh : input.polls = 0) (key : Fin 16) (polls : Nat) :
    (input.polled (polls + 1)).keyboard.held[key] =
      ((input.pressTimes key polls).getLast?.or (input.polled polls).keyboard.held[key]).filter
        fun since => decide (input.closing polls < since + Keyboard.holdTime) := by
  rw [keyboard_polled_succ fresh, Keyboard.held_poll, layout_polled, pressTimes]

/-- If no poll ends before an earlier one, it is enough to look at the last poll. -/
theorem heldAfter_succ_iff_recent
    (nondecreasing : ∀ poll, input.closing poll ≤ input.closing (poll + 1)) {key : Fin 16}
    {polls : Nat} : input.HeldAfter key (polls + 1) ↔ input.Recent key polls := by
  refine ⟨fun held => (heldAfter_succ.mp held).2, fun recent => ?_⟩
  induction polls with
  | zero =>
      refine heldAfter_succ.mpr ⟨.inl fun unpressed => ?_, recent⟩
      obtain ⟨since, found, -⟩ := recent
      rw [latestPress?_succ, unpressed] at found
      cases found
  | succ polls ih =>
      refine heldAfter_succ.mpr ⟨?_, recent⟩
      by_cases pressed : input.pressTimes key (polls + 1) = []
      · obtain ⟨since, found, within⟩ := recent
        rw [latestPress?_succ, pressed] at found
        exact .inr (ih ⟨since, found, Nat.lt_of_le_of_lt (nondecreasing polls) within⟩)
      · exact .inl pressed

/-- A keyboard on which no key was held knows of each key that its presses hold when it was
pressed last, and of no other key anything. -/
theorem held_polled (fresh : input.polls = 0)
    (empty : ∀ key : Fin 16, input.keyboard.held[key] = none) (key : Fin 16) (polls : Nat) :
    (input.HeldAfter key polls ∧ ∃ since,
        (input.polled polls).keyboard.held[key] = some since ∧
          input.latestPress? key polls = some since) ∨
      (¬ input.HeldAfter key polls ∧ (input.polled polls).keyboard.held[key] = none) := by
  induction polls with
  | zero => exact .inr ⟨fun ⟨_, early, _⟩ => absurd early (Nat.not_lt_zero _), empty key⟩
  | succ polls ih =>
      rw [heldAfter_succ, held_polled_succ fresh]
      have latest := input.latestPress?_succ key polls
      by_cases told : input.pressTimes key polls ≠ [] ∨ input.HeldAfter key polls
      · -- Before the keyboard lets go, what it holds is the latest press of all.
        obtain ⟨since, seen, same⟩ : ∃ since, (input.pressTimes key polls).getLast?.or
            (input.polled polls).keyboard.held[key] = some since ∧
              input.latestPress? key (polls + 1) = some since := by
          rcases pressed : (input.pressTimes key polls).getLast? with _ | since
          · have none := List.getLast?_eq_none_iff.mp pressed
            rcases ih with ⟨-, since, held, known⟩ | ⟨notHeld, -⟩
            · exact ⟨since, held, by rw [latest, pressed, known]; rfl⟩
            · exact (told.elim (· none) notHeld).elim
          · exact ⟨since, rfl, by rw [latest, pressed]; rfl⟩
        rw [seen]
        by_cases recent : input.closing polls < since + Keyboard.holdTime
        · exact .inl ⟨⟨told, since, same, recent⟩, since, by simp [recent, Option.filter], same⟩
        · refine .inr ⟨?_, by simp [recent, Option.filter]⟩
          rintro ⟨-, other, found, recentThen⟩
          cases same.symm.trans found
          exact recent recentThen
      · obtain ⟨unpressed, notHeld⟩ := not_or.mp told
        have nothing : (input.polled polls).keyboard.held[key] = none := by
          rcases ih with ⟨held, -⟩ | ⟨-, none⟩
          · exact absurd held notHeld
          · exact none
        refine .inr ⟨fun held => told held.1, ?_⟩
        rw [Decidable.not_not.mp unpressed, nothing]
        rfl

theorem isSome_held_polled (fresh : input.polls = 0)
    (empty : ∀ key : Fin 16, input.keyboard.held[key] = none) (key : Fin 16) (polls : Nat) :
    (input.polled polls).keyboard.held[key].isSome = true ↔ input.HeldAfter key polls := by
  rcases held_polled fresh empty key polls with ⟨held, since, known, -⟩ | ⟨notHeld, none⟩
  · rw [known]
    exact iff_of_true rfl held
  · rw [none]
    exact iff_of_false Bool.false_ne_true notHeld

end TypedInput

end ChipEight
