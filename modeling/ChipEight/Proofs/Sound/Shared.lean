import ChipEight.Sound.Handles

/-!
# A counter shared by its handles

A counter seen through any of its handles holds what the accesses to it have left, taken in
the order in which they took effect and through whichever handles they came. Accesses to
other counters, new handles and new counters make no difference to it. So of the decrements
after a set each is counted once, and the counter stops at zero.
-/

set_option autoImplicit false

namespace ChipEight.SoundTimer

/-! ## Levels -/

namespace Access

/-- The level that an access leaves. -/
def after (level : Nat) : Access → Nat
  | .get => level
  | .set value => value.toNat
  | .decrement => level - 1

/-- The level that an access gives back: the one it finds, or the one that a decrement
leaves. -/
def answer (level : Nat) : Access → Option Nat
  | .get => some level
  | .set _ => none
  | .decrement => some (level - 1)

/-- Accesses in the order of effect, each with its answer, and the level after them. -/
def replay (level : Nat) : List Access → List (Access × Option Nat) × Nat
  | [] => ([], level)
  | access :: later =>
    let (entries, last) := replay (access.after level) later
    ((access, access.answer level) :: entries, last)

theorem replay_append (level : Nat) (earlier later : List Access) :
    replay level (earlier ++ later) =
      ((replay level earlier).1 ++ (replay (replay level earlier).2 later).1,
        (replay (replay level earlier).2 later).2) := by
  induction earlier generalizing level with
  | nil => rfl
  | cons access following ih =>
      rw [List.cons_append, replay, ih, replay]
      rfl

def sets : Access → Bool
  | .set _ => true
  | .get | .decrement => false

/-- Without a set the decrements answer with one level after the other down to zero. -/
theorem replay_of_no_set {accesses : List Access}
    (noSet : ∀ access ∈ accesses, access.sets = false) (level : Nat) :
    (replay level accesses).2 = level - min level (accesses.count .decrement) ∧
      ((replay level accesses).1.filter (·.1 = .decrement)).map Prod.snd =
        (List.range (accesses.count .decrement)).map fun earlier =>
          some (level - (earlier + 1)) := by
  induction accesses generalizing level with
  | nil => exact ⟨by simp [replay], rfl⟩
  | cons access later ih =>
      have rest := ih fun other among => noSet other (List.mem_cons_of_mem _ among)
      cases access with
      | set value => cases noSet (.set value) List.mem_cons_self
      | get =>
          obtain ⟨last, answers⟩ := rest level
          have same : (Access.get :: later).count .decrement = later.count .decrement :=
            List.count_cons_of_ne (by decide)
          rw [same]
          exact ⟨last, by simpa [replay, after] using answers⟩
      | decrement =>
          obtain ⟨last, answers⟩ := rest (level - 1)
          rw [List.count_cons_self]
          refine ⟨?_, ?_⟩
          · rw [replay, after, last]
            omega
          · have further : ∀ earlier, level - (earlier + 1 + 1) = level - 1 - (earlier + 1) := by
              omega
            rw [List.range_succ_eq_map, List.map_cons, List.map_map, replay]
            simp only [after, answer, List.filter_cons, decide_true, if_true, List.map_cons,
              answers]
            congr 2
            funext earlier
            exact congrArg some (further earlier).symm

end Access

def Effect.entry (effect : Effect) : Access × Option Nat :=
  (effect.access, effect.answer.map UInt8.toNat)

/-! ## Counters -/

namespace Counters

def level (counters : Counters) (handle : Handle) : Nat :=
  (counters.timer handle).value.toNat

def Holds (counters : Counters) (handle : Handle) : Prop :=
  handle.index < counters.timers.length

theorem timer_put_self {counters : Counters} {handle : Handle}
    (held : counters.Holds handle) (timer : SoundTimer) :
    (counters.put handle timer).timer handle = timer := by
  rw [put, Counters.timer, List.getD_eq_getElem?_getD, List.getElem?_set_self held,
    Option.getD_some]

theorem timer_put_of_ne {handle other : Handle} (apart : handle ≠ other) (counters : Counters)
    (timer : SoundTimer) : (counters.put handle timer).timer other = counters.timer other := by
  have places : handle.index ≠ other.index := fun same => apart (congrArg Handle.mk same)
  rw [put, Counters.timer, List.getD_eq_getElem?_getD, List.getElem?_set_ne places,
    ← List.getD_eq_getElem?_getD, Counters.timer]

theorem timer_create {counters : Counters} {handle : Handle} (held : counters.Holds handle) :
    counters.create.2.timer handle = counters.timer handle := by
  simp only [create, Counters.timer, List.getD_eq_getElem?_getD]
  rw [List.getElem?_append_left held]

theorem holds_access {counters : Counters} {handle : Handle} (held : counters.Holds handle)
    (through : Handle) (access : Access) :
    (counters.access through access).2.Holds handle := by
  have kept : (counters.access through access).2.timers.length = counters.timers.length := by
    cases access with
    | get => rfl
    | set value | decrement => exact List.length_set
  rw [Holds, kept]
  exact held

theorem level_access {counters : Counters} {handle : Handle} (held : counters.Holds handle)
    (access : Access) :
    (counters.access handle access).2.level handle = access.after (counters.level handle) := by
  cases access with
  | get => rfl
  | set value => exact congrArg (·.value.toNat) (timer_put_self held ⟨value⟩)
  | decrement =>
      have lowered := timer_put_self held (counters.timer handle).decrement
      exact (congrArg (·.value.toNat) lowered).trans (toNat_decrement _)

theorem answer_access (counters : Counters) (handle : Handle) (access : Access) :
    (counters.access handle access).1.map UInt8.toNat =
      access.answer (counters.level handle) := by
  cases access with
  | get => rfl
  | set value => rfl
  | decrement => exact congrArg some (toNat_decrement _)

theorem level_access_of_ne {handle other : Handle} (apart : handle ≠ other)
    (counters : Counters) (access : Access) :
    (counters.access handle access).2.level other = counters.level other := by
  cases access with
  | get => rfl
  | set value | decrement => exact congrArg (·.value.toNat) (timer_put_of_ne apart counters _)

end Counters

/-! ## Pools -/

namespace Pool

/-- The handles that were made with a timer are their own origin, and a copy has the origin
of the handle that it was copied from. Here each handle has the number of its origin. -/
def originsAfter (origins : List Nat) : Request → List Nat
  | .make => origins ++ [origins.length]
  | .copy source => origins ++ origins[source]?.toList
  | .access _ _ => origins

def origins (requests : List Request) : List Nat :=
  requests.foldl originsAfter []

def reaching (handle : Handle) (effects : List Effect) : List Effect :=
  effects.filter (·.handle = handle)

/-- Two pairs agree in their handles exactly if they agree in their origins. -/
def Paired (pairs : List (Handle × Nat)) : Prop :=
  ∀ first ∈ pairs, ∀ second ∈ pairs, first.1 = second.1 ↔ first.2 = second.2

theorem Paired.concat {pairs : List (Handle × Nat)} (paired : Paired pairs)
    {added : Handle × Nat} (agrees : ∀ pair ∈ pairs, pair.1 = added.1 ↔ pair.2 = added.2) :
    Paired (pairs ++ [added]) := by
  intro first amongFirst second amongSecond
  rw [List.mem_append, List.mem_singleton] at amongFirst amongSecond
  rcases amongFirst with oldFirst | rfl
  · rcases amongSecond with oldSecond | rfl
    · exact paired first oldFirst second oldSecond
    · exact agrees first oldFirst
  · rcases amongSecond with oldSecond | rfl
    · exact eq_comm.trans ((agrees second oldSecond).trans eq_comm)
    · exact iff_of_true rfl rfl

/-- The handles of a pool side by side with their origins. -/
structure Descent (pool : Pool) (origins : List Nat) (pairs : List (Handle × Nat)) : Prop where
  handles : pool.handles = pairs.map Prod.fst
  origins : origins = pairs.map Prod.snd
  allocated : ∀ pair ∈ pairs, pool.counters.Holds pair.1
  below : ∀ pair ∈ pairs, pair.2 < pairs.length
  paired : Paired pairs

theorem Descent.serve {pool : Pool} {origins : List Nat} {pairs : List (Handle × Nat)}
    (descent : Descent pool origins pairs) (request : Request) :
    ∃ next, Descent (pool.serve request).2 (originsAfter origins request) next := by
  obtain ⟨handles, numbers, allocated, below, paired⟩ := descent
  cases request with
  | make =>
      -- The new handle is behind all that are allocated, and its number behind all origins.
      refine ⟨pairs ++ [(⟨pool.counters.timers.length⟩, pairs.length)], ?_, ?_, ?_, ?_, ?_⟩
      · simp [Pool.serve, Counters.create, handles]
      · simp [originsAfter, numbers]
      · intro pair among
        simp only [Pool.serve, Counters.create, Counters.Holds, List.length_append]
        rcases List.mem_append.mp among with old | new
        · exact Nat.lt_add_right _ (allocated pair old)
        · cases List.mem_singleton.mp new
          exact Nat.lt_succ_self _
      · intro pair among
        rw [List.length_append]
        rcases List.mem_append.mp among with old | new
        · exact Nat.lt_add_right _ (below pair old)
        · cases List.mem_singleton.mp new
          exact Nat.lt_succ_self _
      · refine paired.concat fun pair among => iff_of_false ?_ (Nat.ne_of_lt (below pair among))
        intro same
        exact Nat.ne_of_lt (allocated pair among) (congrArg Handle.index same)
  | copy source =>
      cases found : pairs[source]? with
      | none =>
          refine ⟨pairs, ?_, ?_, allocated, below, paired⟩
          · simp [Pool.serve, handles, found]
          · simp [originsAfter, numbers, found]
      | some pair =>
          have member : pair ∈ pairs := List.mem_of_getElem? found
          refine ⟨pairs ++ [pair], ?_, ?_, ?_, ?_, ?_⟩
          · simp [Pool.serve, handles, found]
          · simp [originsAfter, numbers, found]
          · intro other among
            rcases List.mem_append.mp among with old | new
            · exact allocated other old
            · cases List.mem_singleton.mp new
              exact allocated pair member
          · intro other among
            rw [List.length_append]
            rcases List.mem_append.mp among with old | new
            · exact Nat.lt_add_right _ (below other old)
            · cases List.mem_singleton.mp new
              exact Nat.lt_add_right _ (below pair member)
          · exact paired.concat fun other among => paired other among pair member
  | access through access =>
      refine ⟨pairs, ?_, numbers, ?_, below, paired⟩
      · rw [Pool.serve]
        cases pool.handles[through]? <;> exact handles
      · intro pair among
        rw [Pool.serve]
        cases pool.handles[through]? with
        | none => exact allocated pair among
        | some handle => exact Counters.holds_access (allocated pair among) handle access

theorem descent_serveAll {pool : Pool} {origins : List Nat} {pairs : List (Handle × Nat)}
    (descent : Descent pool origins pairs) (requests : List Request) :
    ∃ next, Descent (pool.serveAll requests).2 (requests.foldl originsAfter origins) next := by
  induction requests generalizing pool origins pairs with
  | nil => exact ⟨pairs, descent⟩
  | cons request later ih =>
      obtain ⟨next, kept⟩ := descent.serve request
      exact ih kept

theorem descent_of_requests (requests : List Request) :
    ∃ pairs, Descent (serveAll {} requests).2 (origins requests) pairs := by
  have fresh : Descent {} [] [] := by
    refine ⟨rfl, rfl, ?_, ?_, ?_⟩
    · exact fun _ among => nomatch among
    · exact fun _ among => nomatch among
    · exact fun _ among => nomatch among
  exact descent_serveAll fresh requests

/-! ## Levels in a pool -/

theorem holds_serve {pool : Pool} {handle : Handle} (held : pool.counters.Holds handle)
    (request : Request) : (pool.serve request).2.counters.Holds handle := by
  cases request with
  | make =>
      simp only [serve, Counters.create, Counters.Holds, List.length_append]
      exact Nat.lt_add_right _ held
  | copy source => exact held
  | access through access =>
      rw [serve]
      cases pool.handles[through]? with
      | none => exact held
      | some other => exact Counters.holds_access held other access

theorem replay_serve {pool : Pool} {handle : Handle} (held : pool.counters.Holds handle)
    (request : Request) :
    let effects := reaching handle (pool.serve request).1.toList
    Access.replay (pool.counters.level handle) (effects.map Effect.access) =
      (effects.map Effect.entry, (pool.serve request).2.counters.level handle) := by
  cases request with
  | make => exact Prod.ext rfl (congrArg (·.value.toNat) (Counters.timer_create held).symm)
  | copy source => rfl
  | access through access =>
      rw [serve]
      cases pool.handles[through]? with
      | none => rfl
      | some other =>
          by_cases same : other = handle
          · subst same
            have left := Counters.level_access held access
            have given := Counters.answer_access pool.counters other access
            simp [reaching, Access.replay, Effect.entry, left, given]
          · have left := Counters.level_access_of_ne same pool.counters access
            simp [reaching, Access.replay, same, left]

theorem replay_serveAll {pool : Pool} {handle : Handle} (held : pool.counters.Holds handle)
    (requests : List Request) :
    let effects := reaching handle (pool.serveAll requests).1
    Access.replay (pool.counters.level handle) (effects.map Effect.access) =
      (effects.map Effect.entry, (pool.serveAll requests).2.counters.level handle) := by
  induction requests generalizing pool with
  | nil => rfl
  | cons request later ih =>
      have first := replay_serve held request
      have rest := ih (holds_serve held request)
      dsimp only at first rest ⊢
      rw [serveAll, reaching, List.filter_append, List.map_append, List.map_append,
        Access.replay_append, ← reaching, ← reaching, first, rest]

theorem handles_eq_iff_origins_eq (requests : List Request) (first second : Nat) :
    (serveAll {} requests).2.handles[first]? = (serveAll {} requests).2.handles[second]? ↔
      (origins requests)[first]? = (origins requests)[second]? := by
  obtain ⟨pairs, descent⟩ := descent_of_requests requests
  rw [descent.handles, descent.origins]
  simp only [List.getElem?_map]
  cases atFirst : pairs[first]? with
  | none => cases pairs[second]? <;> simp
  | some one =>
      cases atSecond : pairs[second]? with
      | none => simp
      | some other =>
          have agrees := descent.paired one (List.mem_of_getElem? atFirst) other
            (List.mem_of_getElem? atSecond)
          simpa using agrees

theorem holds_of_handle {requests : List Request} {handle : Handle}
    (among : handle ∈ (serveAll {} requests).2.handles) :
    (serveAll {} requests).2.counters.Holds handle := by
  obtain ⟨pairs, descent⟩ := descent_of_requests requests
  rw [descent.handles] at among
  obtain ⟨pair, member, rfl⟩ := List.mem_map.mp among
  exact descent.allocated pair member

theorem decrements_after_set {pool : Pool} {through : Nat} {handle : Handle}
    (found : pool.handles[through]? = some handle) (held : pool.counters.Holds handle)
    (value : UInt8) (later : List Request) :
    let set := (pool.serve (.access through (.set value))).2
    let effects := reaching handle (set.serveAll later).1
    let decrements := effects.filter (·.access = .decrement)
    (∀ effect ∈ effects, effect.access.sets = false) →
      (set.serveAll later).2.counters.level handle =
        value.toNat - min value.toNat decrements.length ∧
      decrements.map (fun effect => effect.answer.map UInt8.toNat) =
        (List.range decrements.length).map fun before => some (value.toNat - (before + 1)) := by
  intro set effects decrements noSet
  have level : set.counters.level handle = value.toNat := by
    simp only [set, serve, found]
    exact Counters.level_access held (.set value)
  have replayed : Access.replay value.toNat (effects.map Effect.access) =
      (effects.map Effect.entry, (set.serveAll later).2.counters.level handle) := by
    rw [← level]
    exact replay_serveAll (holds_serve held (.access through (.set value))) later
  have counted : (effects.map Effect.access).count .decrement = decrements.length := by
    rw [List.count_eq_countP, List.countP_map, List.countP_eq_length_filter]
    rfl
  have entries : (effects.map Effect.entry).filter (·.1 = .decrement) =
      decrements.map Effect.entry := by
    rw [List.filter_map]
    rfl
  have noSetAmong : ∀ access ∈ effects.map Effect.access, access.sets = false := by
    simpa using noSet
  obtain ⟨last, answers⟩ := Access.replay_of_no_set noSetAmong value.toNat
  rw [replayed, counted] at last answers
  rw [entries, List.map_map] at answers
  exact ⟨last, answers⟩

/-- After any requests, handles reach one counter exactly if they are copies of one handle.
From then on the counter of a handle is what the accesses to it make of it, through
whichever copies they come, and each answers with the level that it finds or leaves. So
after a set every decrement takes effect once, the answers go down to zero one by one, and
stay there. -/
theorem level_after_set (earlier : List Request) :
    let pool := (serveAll {} earlier).2
    (∀ first second : Nat, pool.handles[first]? = pool.handles[second]? ↔
      (origins earlier)[first]? = (origins earlier)[second]?) ∧
    ∀ (through : Nat) (handle : Handle), pool.handles[through]? = some handle →
      (∀ later,
        let effects := reaching handle (pool.serveAll later).1
        Access.replay (pool.counters.level handle) (effects.map Effect.access) =
          (effects.map Effect.entry, (pool.serveAll later).2.counters.level handle)) ∧
      ∀ (value : UInt8) (later : List Request),
        let set := (pool.serve (.access through (.set value))).2
        let effects := reaching handle (set.serveAll later).1
        let decrements := effects.filter (·.access = .decrement)
        (∀ effect ∈ effects, effect.access.sets = false) →
          (set.serveAll later).2.counters.level handle =
            value.toNat - min value.toNat decrements.length ∧
          decrements.map (fun effect => effect.answer.map UInt8.toNat) =
            (List.range decrements.length).map fun before =>
              some (value.toNat - (before + 1)) := by
  intro pool
  refine ⟨handles_eq_iff_origins_eq earlier, fun through handle found => ?_⟩
  have held : pool.counters.Holds handle := holds_of_handle (List.mem_of_getElem? found)
  exact ⟨replay_serveAll held, decrements_after_set found held⟩

/-- Three holders share a counter, a fourth joins them, and a counter made on its own is set
and lowered between their accesses. -/
theorem level_after_set_four_holders :
    let earlier : List Request := [.make, .copy 0, .access 1 (.set 200), .copy 1, .make]
    let pool := (serveAll {} earlier).2
    let set := (pool.serve (.access 1 (.set 3))).2
    let later : List Request :=
      [.access 0 .decrement, .access 3 (.set 9), .access 2 .decrement, .copy 2, .access 2 .get,
        .access 4 .decrement, .access 3 .decrement, .access 1 .decrement]
    let effects := reaching ⟨0⟩ (set.serveAll later).1
    let decrements := effects.filter (·.access = .decrement)
    pool.handles[2]? = some ⟨0⟩ ∧ (∀ effect ∈ effects, effect.access.sets = false) ∧
      pool.handles[0]? = pool.handles[2]? ∧ pool.handles[0]? ≠ pool.handles[3]? ∧
      decrements.length = 4 ∧ (set.serveAll later).2.counters.level ⟨0⟩ = 0 ∧
      decrements.map (fun effect => effect.answer.map UInt8.toNat) =
        [some 2, some 1, some 0, some 0] ∧
      (set.serveAll later).2.counters.level ⟨1⟩ = 8 := by
  intro earlier pool set later effects decrements
  obtain ⟨shares, counter⟩ := level_after_set earlier
  have found : pool.handles[1]? = some ⟨0⟩ := by decide
  have noSet : ∀ effect ∈ effects, effect.access.sets = false := by decide
  have four : decrements.length = 4 := by decide
  obtain ⟨last, answers⟩ := (counter 1 ⟨0⟩ found).2 3 later noSet
  have others : pool.handles[3]? = some ⟨1⟩ := by decide
  have apart := (counter 3 ⟨1⟩ others).1 (.access 1 (.set 3) :: later)
  refine ⟨by decide, noSet, (shares 0 2).mpr (by decide),
    fun same => absurd ((shares 0 3).mp same) (by decide), four, ?_, ?_, ?_⟩
  · exact last.trans (by rw [four]; rfl)
  · exact answers.trans (by rw [four]; rfl)
  · exact (congrArg Prod.snd apart).symm.trans (by decide)

end Pool

end ChipEight.SoundTimer
