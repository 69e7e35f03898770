/-
What a worker that fails lets go of. A worker that fails in the midst of a pass
holds its flight still, and no other thread does; so its guard lets go of what is
its own (`Sound.drop_own`). But the guard stays to the end of the worker: one that
has let go of its flight, and fails while it asks for the current source, lets go
of the flight once more, whoever holds it then (`Unwinding.strikes`).

In a run where that never happens, threads stay apart through all failures, and
one worker at most parses a source (`unwinding_parses_alone`). Where it happens,
two workers parse the same source at once (`unwinding_frees_another`).
-/
import AblOutline.Proofs.Threads
import AblOutline.Scheduler.Unwinding

namespace AblOutline.Scheduler

section Worlds

variable {w w' : World} {k : Worker} {failure : Failure} {steps : Nat}

/-- An operation that breaks off changes nothing of the flights. -/
theorem breakOff?_keeps (h : w.breakOff? steps k failure = some w')
    (hcomes : w.provider.failing = none) :
    w'.flights = w.flights ∧ w'.provider = w.provider := by
  cases failure with
  | asking =>
      simp only [World.breakOff?] at h
      split at h
      · cases h
        exact ⟨rfl, rfl⟩
      · cases h
  | telling told =>
      simp only [World.breakOff?] at h
      split at h
      · rename_i htells
        obtain ⟨⟨done, after⟩, hmove, h⟩ := Option.bind_eq_some_iff.1 h
        have hfollow : k.stage ≠ .following := by
          intro hfollow
          rw [hfollow] at htells
          cases htells
        obtain ⟨-, hprovider, stage, -, hadvances⟩ :=
          advances_of_move? hmove hfollow hcomes
        dsimp only at h
        split at h
        · cases h
          refine ⟨?_, hprovider⟩
          change done.flights = w.flights
          generalize done.flights = f at hadvances ⊢
          cases hadvances with
          | start | parse => rfl
          | _ => simp_all [Stage.tells]
        · cases h
      · cases h

end Worlds

namespace Act

variable {a : Act}

/-- Without a source that fails, what happens brings in none. -/
theorem isSafe_unfailing (a : Act) : Threads.isSafe a.unfailing = true := by
  cases a <;> rfl

end Act

namespace Unwinding

variable {u u' : Unwinding} {a : Act} {as : List Act} {steps i j flight : Nat}
  {id : String} {stage : Stage} {y : Thread}

/-- A guard lets go of a flight that its worker does not hold any more, and
somebody does. -/
def strikes (u : Unwinding) : Act → Bool
  | .drop number =>
    (u.work? number).any fun (_, flight, stage) =>
      !stage.holds && (u.threads.scheduler.world.flights.get flight).running
  | _ => false

/-- What can come of a scheduler that nobody has used, whatever calls of workers
fail, as long as no guard strikes. -/
inductive Reached : Unwinding → Prop where
  | start (environment : Environment) (provider : Provider) (listeners : Nat) :
      Reached (.start environment provider listeners)
  | act {u u' : Unwinding} {steps : Nat} {a : Act} (h : Reached u)
      (hspares : u.strikes a = false) (hm : u.act? steps a = some u') : Reached u'

/-- Threads are apart, and no source of the provider fails by itself. -/
structure Sound (u : Unwinding) : Prop where
  apart : u.threads.Apart
  comes : u.threads.scheduler.world.provider.failing = none

theorem work?_eq (h : u.work? i = some (id, flight, stage)) :
    u.threads.list[i]? = some ⟨id, .work flight stage⟩ := by
  unfold work? at h
  split at h
  · cases h
    assumption
  · cases h

theorem strikes_drop (h : u.work? i = some (id, flight, stage)) :
    u.strikes (.drop i)
      = (!stage.holds && (u.threads.scheduler.world.flights.get flight).running) := by
  simp only [strikes, h, Option.any_some]

/-- A worker in the midst of a pass holds its flight, and nobody else does. -/
theorem Sound.drop_own (h : u.Sound) (hwork : u.work? i = some (id, flight, stage))
    (hholds : stage.holds = true) (hji : j ≠ i)
    (hy : u.threads.list[j]? = some y) : y.task.held? ≠ some flight := by
  intro hheld
  have hown : (Task.work flight stage).held? = some flight := by
    simp [Task.held?, hholds]
  exact hji (h.apart.alone j i y _ flight hy (work?_eq hwork) hheld hown)

/-- A flight that is not held can be let go of without any effect. -/
theorem running_release_free {f : Flights} (hfree : (f.get flight).running = false)
    (n : Nat) : ((f.release flight).get n).running = (f.get n).running := by
  rw [Flights.running_release]
  split
  · rename_i hn
    rw [← hn, hfree]
  · rfl

/-- What a guard does to the flights, unless it strikes. -/
theorem operates_drop {f : Flights}
    (hspares : stage.holds = false → (f.get flight).running = false) :
    Operates f ⟨id, .work flight stage⟩ (f.release flight) ⟨id, .ended⟩ [] := by
  cases hholds : stage.holds with
  | true =>
      have hown : (Task.work flight stage).held? = some flight := by
        simp [Task.held?, hholds]
      exact .release hown rfl ⟨rfl, rfl, rfl⟩
  | false =>
      exact .stay (fun _ => rfl) Array.size_modify
        (running_release_free (hspares hholds))
        (fun _ => ⟨nofun, nofun, nofun⟩) nofun

theorem Sound.go {a : Scheduler.Act} (h : u.Sound)
    (hm : u.act? steps (.go a) = some u') : u'.Sound := by
  simp only [act?] at hm
  split at hm
  · cases hm
  · obtain ⟨t, ht, rfl⟩ := Option.map_eq_some_iff.1 hm
    exact ⟨h.apart.act h.comes ht,
      Threads.act?_failing h.comes (Act.isSafe_unfailing a) ht⟩

theorem Sound.fail {failure : Failure} (h : u.Sound)
    (hm : u.act? steps (.fail i failure) = some u') : u'.Sound := by
  obtain ⟨⟨id, flight, stage⟩, hwork, hm⟩ := Option.bind_eq_some_iff.1 hm
  obtain ⟨w, hw, hm⟩ := Option.bind_eq_some_iff.1 hm
  obtain ⟨hflights, hprovider⟩ := breakOff?_keeps hw h.comes
  dsimp only at hm
  split at hm
  · cases hm
  · cases hm
    refine ⟨⟨?_, ?_, h.apart.alone, h.apart.inside⟩, ?_⟩
    · exact hflights ▸ h.apart.flights
    · intro x hx
      have hfits := h.apart.fits x hx
      rw [← hflights] at hfits
      exact hfits
    · exact hprovider ▸ h.comes

theorem Sound.drop (h : u.Sound) (hspares : u.strikes (.drop i) = false)
    (hm : u.act? steps (.drop i) = some u') : u'.Sound := by
  obtain ⟨⟨id, flight, stage⟩, hwork, hm⟩ := Option.bind_eq_some_iff.1 hm
  have hx := work?_eq hwork
  have hfree : stage.holds = false →
      (u.threads.scheduler.world.flights.get flight).running = false := by
    rw [strikes_drop hwork] at hspares
    simpa using hspares
  dsimp only at hm
  split at hm
  · cases hm
    refine ⟨?_, h.comes⟩
    have hop : Operates u.threads.scheduler.world.flights ⟨id, .work flight stage⟩
        (inWorld u.threads.scheduler { u.threads.scheduler.world with
          flights := u.threads.scheduler.world.flights.release flight }).world.flights
        ⟨id, .ended⟩ [] := operates_drop hfree
    have hapart := h.apart.operates hx hop nofun (fun _ _ hj => hj)
    rw [List.append_nil] at hapart
    exact hapart
  · cases hm

theorem Sound.act (h : u.Sound) (hspares : u.strikes a = false)
    (hm : u.act? steps a = some u') : u'.Sound := by
  cases a with
  | go a => exact h.go hm
  | fail number failure => exact h.fail hm
  | drop number => exact h.drop hspares hm

/-- Whatever has happened, in whatever order. -/
theorem Reached.sound (h : u.Reached) : u.Sound := by
  induction h with
  | start environment provider listeners => exact ⟨Threads.apart_start .., rfl⟩
  | act _ hspares hm ih => exact ih.act hspares hm

/-- That thread does so many operations, and none of its calls fails. -/
def runs (number times : Nat) : List Act := .replicate times (.go (.run number true))

/-- One thing after the other happens, and no guard strikes. -/
def spares (steps : Nat) (u : Unwinding) : List Act → Bool
  | [] => true
  | a :: as => !u.strikes a && (u.act? steps a).all (spares steps · as)

theorem Reached.acts (h : u.Reached) (hspares : u.spares steps as = true)
    (hm : u.acts? steps as = some u') : u'.Reached := by
  induction as generalizing u with
  | nil =>
      cases hm
      exact h
  | cons a as ih =>
      obtain ⟨v, hv, hm⟩ := Option.bind_eq_some_iff.1 hm
      unfold spares at hspares
      rw [hv] at hspares
      simp only [Option.all_some, Bool.and_eq_true, Bool.not_eq_true'] at hspares
      exact ih (h.act hspares.1 hv) hspares.2 hm

end Unwinding

-- ================================================================== alone

open Unwinding in
/-- Whatever calls of workers fail, in whatever order things happen: as long as no
guard of a worker that has let go of its flight finds the flight held, one worker
at most is in the midst of a pass over a source, those that unwind included; and
the guard of a worker that failed in a pass lets go of a flight that nobody else
holds. -/
theorem unwinding_parses_alone {u : Unwinding} (h : u.Reached) :
    (∀ id, u.threads.list.countP (·.parses id) ≤ 1)
    ∧ ∀ (i : Nat) (id : String) (flight : Nat) (stage : Stage),
        u.work? i = some (id, flight, stage) → u.strikes (.drop i) = false →
        ∀ (j : Nat) (y : Thread), j ≠ i → u.threads.list[j]? = some y →
          y.task.held? ≠ some flight := by
  have hsound := h.sound
  refine ⟨hsound.apart.countP_parses, ?_⟩
  intro i id flight stage hwork hspares j y hji hy
  cases hholds : stage.holds with
  | true => exact hsound.drop_own hwork hholds hji hy
  | false =>
      intro hheld
      have hrunning := ((hsound.apart.fits y (List.mem_of_getElem? hy)).held _ hheld).2
      rw [strikes_drop hwork, hholds, hrunning] at hspares
      cases hspares

open Unwinding in
/-- A listener fails in the midst of a pass. The worker still holds its flight when
the source is requested again, so that the other call finds it held. -/
theorem unwinding_parses_alone_listener :
    ∃ u : Unwinding, u.Reached ∧ u.unwinding = [1]
      ∧ u.work? 1 = some ("a", 0, .called (some "")) ∧ u.strikes (.drop 1) = false
      ∧ u.threads.list.countP (·.parses "a") ≤ 1
      ∧ ∃ y : Thread, u.threads.list[2]? = some y ∧ y.task.held? ≠ some 0 := by
  let first : Unwinding := .start {} { texts := [("a", "")] } 1
  let as : List Unwinding.Act := [.go (.request "a")] ++ runs 0 4 ++ runs 1 3
    ++ [.fail 1 (.telling 0), .go (.request "a")] ++ runs 2 4
  have hspares : first.spares 40 as = true := by decide +kernel
  have hread : (first.acts? 40 as).any (fun u => decide (u.unwinding = [1])
      && (decide (u.work? 1 = some ("a", 0, .called (some "")))
        && (u.threads.list[2]?.isSome && !u.strikes (.drop 1)))) = true := by
    decide +kernel
  obtain ⟨u, hacts, hsays⟩ := (Option.any_eq_true _ _).1 hread
  simp only [Bool.and_eq_true, decide_eq_true_eq, Bool.not_eq_true'] at hsays
  obtain ⟨hunwinding, hwork, hsome, hmild⟩ := hsays
  obtain ⟨y, hy⟩ := Option.isSome_iff_exists.1 hsome
  have hu : u.Reached := (Reached.start ..).acts hspares hacts
  obtain ⟨halone, hown⟩ := unwinding_parses_alone hu
  exact ⟨u, hu, hunwinding, hwork, hmild, halone "a", y, hy,
    hown 1 "a" 0 _ hwork hmild 2 y (by decide) hy⟩

open Unwinding in
/-- A worker has let go of its flight and fails while it asks for the current
source. Before its guard comes to it, the source is requested again and a new
worker begins a pass. The guard then lets go of the flight of that one, and the
next request starts a third worker: two are in the midst of a pass. -/
theorem unwinding_frees_another :
    ∃ u v : Unwinding,
      (start {} { texts := [("a", "")] } 1).acts? 40
        ([.go (.request "a")] ++ runs 0 4 ++ runs 1 7
          ++ [.fail 1 .asking, .go (.request "a")] ++ runs 2 4 ++ runs 3 2) = some u
      ∧ u.work? 1 = some ("a", 0, .following) ∧ u.work? 3 = some ("a", 0, .calling)
      ∧ u.acts? 40 ([.drop 1, .go (.request "a")] ++ runs 4 4 ++ runs 5 2) = some v
      ∧ v.threads.list.countP (·.parses "a") = 2 := by
  have hread : ((start {} { texts := [("a", "")] } 1).acts? 40
      ([.go (.request "a")] ++ runs 0 4 ++ runs 1 7
        ++ [.fail 1 .asking, .go (.request "a")] ++ runs 2 4 ++ runs 3 2)).any (fun u =>
      decide (u.work? 1 = some ("a", 0, .following))
        && (decide (u.work? 3 = some ("a", 0, .calling))
        && (u.acts? 40 ([.drop 1, .go (.request "a")] ++ runs 4 4 ++ runs 5 2)).any
          fun v => decide (v.threads.list.countP (·.parses "a") = 2))) = true := by
    decide +kernel
  obtain ⟨u, hu, hsays⟩ := (Option.any_eq_true _ _).1 hread
  simp only [Bool.and_eq_true, decide_eq_true_eq] at hsays
  obtain ⟨hgone, hheld, hsays⟩ := hsays
  obtain ⟨v, hv, htwo⟩ := (Option.any_eq_true _ _).1 hsays
  exact ⟨u, v, hu, hgone, hheld, hv, of_decide_eq_true htwo⟩

end AblOutline.Scheduler
