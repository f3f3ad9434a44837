import ChipEight.Proofs.Machine.Frame

/-!
# Histories of a machine

How operations follow each other, how a request to load can go, and where programs are
placed in every machine that operations lead to from a new one.
-/

set_option autoImplicit false

namespace ChipEight

/-- The requests that load a program. -/
def Operation.loads : Operation → Bool
  | .load _ | .loadFrom _ => true
  | _ => false

namespace Machine

theorem performAll_cons (machine : Machine) (operation : Operation) (later : List Operation) :
    machine.performAll (operation :: later) =
      ((machine.perform operation).1 :: ((machine.perform operation).2.performAll later).1,
        ((machine.perform operation).2.performAll later).2) := rfl

theorem performAll_append (machine : Machine) (earlier later : List Operation) :
    machine.performAll (earlier ++ later) =
      ((machine.performAll earlier).1 ++ ((machine.performAll earlier).2.performAll later).1,
        ((machine.performAll earlier).2.performAll later).2) := by
  induction earlier generalizing machine with
  | nil => rfl
  | cons operation following ih =>
      rw [List.cons_append, performAll_cons, ih, performAll_cons]
      rfl

theorem length_performAll (machine : Machine) (operations : List Operation) :
    (machine.performAll operations).1.length = operations.length := by
  induction operations generalizing machine with
  | nil => rfl
  | cons operation later ih =>
      rw [performAll_cons, List.length_cons, ih, List.length_cons]

theorem Reachable.performAll {machine : Machine} (reached : Reachable machine)
    (operations : List Operation) : Reachable (machine.performAll operations).2 := by
  induction operations generalizing machine with
  | nil => exact reached
  | cons operation later ih => exact ih (.perform operation reached)

/-! ## Loading -/

/-- The program limit leaves room for the program at its usual place. -/
theorem holds_of_length_le {length : Nat} (small : length ≤ programLimit) :
    Memory.Holds ramSize programStart length := by
  have limit : programLimit = 3504 := by decide
  have start : programStart.toNat = 512 := by decide
  simp only [Memory.Holds, ramSize, start]
  omega

/-- The machine that has loaded a program at the usual place. -/
def loaded (machine : Machine) (program : List UInt8) : Machine :=
  { machine with
    memory := ⟨ProgramMemory.layout programStart program, programStart, program.length⟩
    }.restart

theorem load_of_large {machine : Machine} {program : List UInt8}
    (large : programLimit < program.length) :
    machine.load program =
      (.error (.programTooLarge program.length programLimit), machine) := by
  rw [load, ProgramMemory.load, if_pos large]
  rfl

theorem load_of_small {machine : Machine} {program : List UInt8}
    (placed : machine.memory.origin = programStart) (small : program.length ≤ programLimit) :
    machine.load program = (.ok (), machine.loaded program) := by
  rw [load, ProgramMemory.load, if_neg (Nat.not_lt.mpr small), placed,
    if_pos (holds_of_length_le small)]
  simp [install, loaded]

/-- A stream is read to its end before anything is loaded. -/
theorem loadFrom_cases (machine : Machine) (stream : ByteStream) :
    (∃ program, machine.loadFrom stream = machine.load program) ∨
    ∃ cause, machine.loadFrom stream = (.error (.programUnreadable cause), machine) := by
  cases gathered : stream.readUpTo (programLimit + 1) with
  | ok program =>
      exact .inl ⟨program, by rw [loadFrom, ProgramMemory.loadFrom, gathered, load]⟩
  | error cause =>
      refine .inr ⟨cause, ?_⟩
      rw [loadFrom, ProgramMemory.loadFrom, gathered]
      rfl

/-- A request to load either fails and changes nothing, or loads some program. -/
theorem perform_of_loads {machine : Machine} {operation : Operation}
    (placed : machine.memory.origin = programStart) (loads : operation.loads = true) :
    (∃ program, machine.perform operation = (.done, machine.loaded program)) ∨
    ∃ fault, fault ≠ .programOutsideMemory ∧
      machine.perform operation = (.refused fault, machine) := by
  have load_cases : ∀ program, machine.load program = (.ok (), machine.loaded program) ∨
      machine.load program =
        (.error (.programTooLarge program.length programLimit), machine) := by
    intro program
    cases Nat.lt_or_ge programLimit program.length with
    | inl large => exact .inr (load_of_large large)
    | inr small => exact .inl (load_of_small placed small)
  cases operation with
  | load program =>
      cases load_cases program with
      | inl loaded => exact .inl ⟨program, by rw [perform, loaded]; rfl⟩
      | inr refused =>
          exact .inr ⟨.programTooLarge _ _, by simp, by rw [perform, refused]; rfl⟩
  | loadFrom stream =>
      rcases machine.loadFrom_cases stream with ⟨program, same⟩ | ⟨cause, refused⟩
      · cases load_cases program with
        | inl loaded => exact .inl ⟨program, by rw [perform, same, loaded]; rfl⟩
        | inr refused =>
            exact .inr ⟨.programTooLarge _ _, by simp, by rw [perform, same, refused]; rfl⟩
      · exact .inr ⟨.programUnreadable cause, by simp, by rw [perform, refused]; rfl⟩
  | _ => cases loads

/-! ## The place of the program -/

theorem origin_step (machine : Machine) (now period : UInt64) :
    (machine.step now period).2.memory.origin = machine.memory.origin := by
  rcases machine.step_cases now period with
    ⟨_, stepped⟩ | ⟨_, fault, _, stepped⟩ | ⟨_, instruction, _, _, stepped⟩
  · rw [stepped]
  · rw [stepped, ready_eq]
  · rw [stepped, (framed_execute _ instruction).origin, ready_eq]

/-- No operation moves the place of the program. -/
theorem origin_perform {machine : Machine} (placed : machine.memory.origin = programStart)
    (operation : Operation) :
    (machine.perform operation).2.memory.origin = programStart := by
  by_cases loads : operation.loads = true
  · rcases perform_of_loads placed loads with ⟨program, loaded⟩ | ⟨fault, -, refused⟩
    · rw [loaded]
      rfl
    · rw [refused]
      exact placed
  · cases operation with
    | step now period => exact (origin_step machine now period).trans placed
    | press key =>
        rw [perform, Prod.map, id, press_eq]
        exact placed
    | release key =>
        rw [perform, Prod.map, id, release_eq]
        exact placed
    | load program | loadFrom stream => exact absurd rfl loads
    | readSound | writeSound value | lowerSound => exact placed

theorem Reachable.origin {machine : Machine} (reached : Reachable machine) :
    machine.memory.origin = programStart := by
  induction reached with
  | new random => rfl
  | perform operation reached placed => exact origin_perform placed operation

end Machine

end ChipEight
