/-
What requests and workers do to flights. An operation on the flight of one
source changes nothing for others (`Flights.shows_change`), and a new flight
says nothing (`Flights.shows_enter`). `Advances` lists all that a worker can do
to its flight, and the stage it comes to.
-/
import AblOutline.Proofs.Entries
import AblOutline.Scheduler.Traffic
import Mathlib.Data.List.Basic

namespace AblOutline.Scheduler

-- ================================================================= flights

namespace Flights

/-- The flight of a source has that property. -/
def shows (f : Flights) (p : Flight → Bool) (id : String) : Bool :=
  (f.number? id).any fun n => p (f.get n)

/-- One more pass is asked for, of a source. -/
def isDue (f : Flights) (id : String) : Bool := f.shows (·.rerun) id

/-- Sources have flights of their own, and all of these were made. -/
structure WellFormed (f : Flights) : Prop where
  made : ∀ id n, f.number? id = some n → n < f.made.size
  apart : ∀ id id' n, f.number? id = some n → f.number? id' = some n → id = id'

variable {f f' : Flights} {id id' : String} {n : Nat} {p : Flight → Bool}
  {g : Flight → Flight}

theorem shows_of_number? (h : f.number? id = some n) :
    f.shows p id = p (f.get n) := by
  unfold shows
  rw [h]
  rfl

theorem isRunning_of_number? (h : f.number? id = some n) :
    f.isRunning id = (f.get n).running := shows_of_number? (p := (·.running)) h

theorem isDue_of_number? (h : f.number? id = some n) :
    f.isDue id = f.isMarked n := shows_of_number? h

theorem WellFormed.change (hf : f.WellFormed) (n : Nat)
    (g : Flight → Flight) : (f.change n g).WellFormed := by
  refine ⟨fun id m hm => ?_, hf.apart⟩
  have hsize : (f.change n g).made.size = f.made.size := Array.size_modify
  rw [hsize]
  exact hf.made id m hm

/-- Only what its flight shows of the one source changes. -/
theorem shows_change (hf : f.WellFormed) (hn : f.number? id = some n)
    (p : Flight → Bool) (g : Flight → Flight) (id' : String) :
    (f.change n g).shows p id'
      = if id' = id then p (g (f.get n)) else f.shows p id' := by
  have hget : ∀ m, (f.change n g).get m
      = if n = m then g (f.get m) else f.get m := by
    intro m
    unfold change get
    rw [Array.getElem?_modify]
    split
    · rename_i hm
      have hlt : m < f.made.size := hm ▸ hf.made id n hn
      rw [Array.getElem?_eq_getElem hlt]
      rfl
    · rfl
  have hnumber : (f.change n g).number? id' = f.number? id' := rfl
  split
  · rename_i hid
    rw [shows_of_number? (hnumber.trans (hid ▸ hn)), hget, if_pos rfl]
  · rename_i hid
    cases hm : f.number? id' with
    | none =>
        unfold shows
        rw [hnumber, hm]
        rfl
    | some m =>
        have hne : n ≠ m := fun he => hid (hf.apart _ _ _ hm (he ▸ hn))
        rw [shows_of_number? (hnumber.trans hm), shows_of_number? hm, hget,
          if_neg hne]

theorem number?_push (f : Flights) (id id' : String) :
    Flights.number? ⟨f.made.push {}, (id, f.made.size) :: f.table⟩ id'
      = if id' = id then some f.made.size else f.number? id' := by
  unfold number?
  rw [List.lookup_cons]
  split
  · rename_i h
    rw [if_pos (eq_of_beq h)]
  · rename_i h
    rw [if_neg (ne_of_beq_false h)]

/-- The flight of a source that is entered. -/
theorem number?_enter (f : Flights) (id : String) :
    (f.enter id).1.number? id = some (f.enter id).2 := by
  unfold enter
  cases h : f.number? id with
  | some n => exact h
  | none =>
      dsimp only
      rw [number?_push, if_pos rfl]

theorem number?_enter_of_some (h : f.number? id' = some n) :
    (f.enter id).1.number? id' = some n := by
  unfold enter
  cases hid : f.number? id with
  | some m => exact h
  | none =>
      dsimp only
      rw [number?_push, if_neg fun he => ?_]
      · exact h
      · rw [he, hid] at h
        cases h

theorem WellFormed.enter (hf : f.WellFormed) (id : String) :
    (f.enter id).1.WellFormed := by
  unfold Flights.enter
  cases hid : f.number? id with
  | some n => exact hf
  | none =>
      dsimp only
      refine ⟨fun id' n hn => ?_, fun x y n hx hy => ?_⟩
      · rw [number?_push] at hn
        rw [Array.size_push]
        split at hn
        · cases hn
          exact Nat.lt_succ_self _
        · exact Nat.lt_succ_of_lt (hf.made id' n hn)
      · rw [number?_push] at hx hy
        split at hx <;> split at hy
        · rename_i hx' hy'
          exact hx'.trans hy'.symm
        · cases hx
          exact absurd (hf.made _ _ hy) (Nat.lt_irrefl _)
        · cases hy
          exact absurd (hf.made _ _ hx) (Nat.lt_irrefl _)
        · exact hf.apart _ _ _ hx hy

/-- A new flight says nothing. -/
theorem shows_enter (hf : f.WellFormed) (hp : p {} = false) :
    (f.enter id).1.shows p id' = f.shows p id' := by
  unfold enter
  cases hid : f.number? id with
  | some n => rfl
  | none =>
      dsimp only
      unfold shows
      rw [number?_push]
      split
      · rename_i he
        subst he
        rw [hid]
        simp [get, hp]
      · cases hn : f.number? id' with
        | none => rfl
        | some n =>
            have hlt := hf.made id' n hn
            simp [get, Array.getElem?_push, Nat.ne_of_lt hlt]

/-- A flight that cannot be claimed is held. -/
theorem running_of_claim?_none (h : f.claim? n = none) :
    (f.get n).running = true := by
  unfold claim? at h
  split at h
  · assumption
  · cases h

theorem claim?_eq_some (h : f.claim? n = some f') :
    f' = f.change n fun x => { x with running := true } := by
  unfold claim? at h
  split at h
  · cases h
  · exact (Option.some.inj h).symm

end Flights

-- ================================================================= workers

/-- What a worker does to the flights, and the stage that it comes to. -/
inductive Advances (f : Flights) (k : Worker) : Stage → Flights → Prop where
  | clear (h : k.stage = .clearing) :
      Advances f k .starting (f.clear k.flight)
  | start (h : k.stage = .starting) : Advances f k .calling f
  | call (h : k.stage = .calling) (text : Option String) :
      Advances f k (.called text) f
  | parse (text : Option String) (h : k.stage = .called text) :
      Advances f k .checking f
  | again (h : k.stage = .checking) (hm : f.isMarked k.flight = true) :
      Advances f k .clearing f
  | done (h : k.stage = .checking) (hm : f.isMarked k.flight = false) :
      Advances f k .releasing f
  | release (h : k.stage = .releasing) :
      Advances f k .rechecking (f.release k.flight)
  | find (h : k.stage = .rechecking) (hm : f.isMarked k.flight = true) :
      Advances f k .reclaiming f
  | miss (h : k.stage = .rechecking) (hm : f.isMarked k.flight = false) :
      Advances f k .following f
  | reclaim {f' : Flights} (h : k.stage = .reclaiming)
      (hr : f.reclaim? k.id k.flight = some f') : Advances f k .clearing f'
  | lose (h : k.stage = .reclaiming)
      (hr : f.reclaim? k.id k.flight = none) : Advances f k .following f

section Workers

variable {w w' : World} {k : Worker} {after : Option Worker} {steps : Nat}

theorem parseText?_keeps {id text : String}
    (h : w.parseText? steps id text = some w') :
    w'.workers = w.workers ∧ w'.flights = w.flights
      ∧ w'.provider = w.provider := by
  obtain ⟨r, -, hr⟩ := Option.bind_eq_some_iff.1 h
  cases hr
  exact ⟨rfl, rfl, rfl⟩

/-- All that a worker can do, where its source can be asked for. -/
theorem advances_of_move? (h : w.move? steps k = some (w', after))
    (hfollow : k.stage ≠ .following)
    (hfail : w.provider.failing = none) :
    w'.workers = w.workers ∧ w'.provider = w.provider
      ∧ ∃ stage, after = some { k with stage }
        ∧ Advances w.flights k stage w'.flights := by
  unfold World.move? at h
  cases hk : k.stage with
  | clearing =>
      rw [hk] at h
      cases h
      exact ⟨rfl, rfl, _, rfl, .clear hk⟩
  | starting =>
      rw [hk] at h
      cases h
      exact ⟨rfl, rfl, _, rfl, .start hk⟩
  | calling =>
      rw [hk] at h
      cases h
      exact ⟨rfl, rfl, _, rfl, .call hk _⟩
  | called text =>
      rw [hk] at h
      dsimp only at h
      rw [hfail, if_neg nofun] at h
      cases text with
      | none =>
          cases h
          exact ⟨rfl, rfl, _, rfl, .parse _ hk⟩
      | some text =>
          obtain ⟨v, hv, he⟩ := Option.bind_eq_some_iff.1 h
          obtain ⟨hworkers, hflights, hprovider⟩ := parseText?_keeps hv
          cases he
          refine ⟨hworkers, hprovider, _, rfl, ?_⟩
          show Advances w.flights k .checking v.flights
          rw [hflights]
          exact .parse _ hk
  | checking =>
      rw [hk] at h
      cases h
      refine ⟨rfl, rfl, _, rfl, ?_⟩
      cases hm : w.flights.isMarked k.flight with
      | true => exact .again hk hm
      | false => exact .done hk hm
  | releasing =>
      rw [hk] at h
      cases h
      exact ⟨rfl, rfl, _, rfl, .release hk⟩
  | rechecking =>
      rw [hk] at h
      cases h
      refine ⟨rfl, rfl, _, rfl, ?_⟩
      cases hm : w.flights.isMarked k.flight with
      | true => exact .find hk hm
      | false => exact .miss hk hm
  | reclaiming =>
      rw [hk] at h
      dsimp only at h
      cases hr : w.flights.reclaim? k.id k.flight with
      | none =>
          rw [hr] at h
          cases h
          exact ⟨rfl, rfl, _, rfl, .lose hk hr⟩
      | some flights =>
          rw [hr] at h
          cases h
          exact ⟨rfl, rfl, _, rfl, .reclaim hk hr⟩
  | following => exact absurd hk hfollow

end Workers

namespace Advances

variable {f f' : Flights} {k : Worker} {stage : Stage} {id : String}
  {p : Flight → Bool}

/-- The flights are as they were, or that of the worker was changed. -/
theorem change (h : Advances f k stage f') :
    f' = f ∨ ∃ g, f' = f.change k.flight g := by
  cases h with
  | clear => exact Or.inr ⟨_, rfl⟩
  | release => exact Or.inr ⟨_, rfl⟩
  | reclaim h hr =>
      unfold Flights.reclaim? at hr
      split at hr
      · exact Or.inr ⟨_, Flights.claim?_eq_some hr⟩
      · cases hr
  | _ => exact Or.inl rfl

theorem number? (h : Advances f k stage f') (id : String) :
    f'.number? id = f.number? id := by
  obtain rfl | ⟨g, rfl⟩ := h.change <;> rfl

theorem wellFormed (h : Advances f k stage f') (hf : f.WellFormed) :
    f'.WellFormed := by
  obtain rfl | ⟨g, rfl⟩ := h.change
  · exact hf
  · exact hf.change _ g

/-- Nothing changes for other sources. -/
theorem shows_other (h : Advances f k stage f') (hf : f.WellFormed)
    (hk : f.number? k.id = some k.flight) (hid : id ≠ k.id) :
    f'.shows p id = f.shows p id := by
  obtain rfl | ⟨g, rfl⟩ := h.change
  · rfl
  · rw [Flights.shows_change hf hk, if_neg hid]

end Advances

end AblOutline.Scheduler
