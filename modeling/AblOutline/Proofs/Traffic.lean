/-
Which requests are served. By induction over a history, whatever is requested
is served or will be (`Traffic.Reached.sound`). So where nobody is at work any
more and all calls have returned, each call was served, or left its mark when
nobody was to look for it (`requests_served`).

The latter happens: a call that finds a flight held has not left its mark yet,
and a worker that lets go of the flight looks for marks only once more. Such a
request is lost (`request_lost`).
-/
import AblOutline.Proofs.Traffic.Sound
import Mathlib.Logic.Function.Iterate

namespace AblOutline.Scheduler

-- =================================================================== alone

/-- A call that nobody gets between does what a request does. -/
theorem move_request (w : World) (id : String) :
    ∃ late, (fun x : World × Call => x.2.move x.1)^[4] (w, { id })
      = ((w.request id).1,
        { id, stage := .returned (w.request id).2, late }) := by
  have hentered : Call.move w { id } = ({ w with flights := (w.flights.enter id).1 },
      { id, stage := .claiming (w.flights.enter id).2 }) := rfl
  unfold World.request
  simp only [Function.iterate_succ, Function.iterate_zero, Function.comp_apply,
    hentered]
  cases hclaim : (w.flights.enter id).1.claim? (w.flights.enter id).2 with
  | none => simp [Call.move, hclaim]
  | some flights => simp [Call.move, hclaim]

/-- A worker that is done requests a parse of the current source where that is
stale. -/
theorem followCurrent_eq (w : World) (id : String) :
    w.followCurrent id
      = ((w.stale? id).map fun current => (w.request current).1).getD w := by
  unfold World.followCurrent World.stale?
  cases w.provider.current with
  | none => rfl
  | some current =>
      rw [Option.filter_some]
      dsimp only
      by_cases h : current ≠ id ∧ (!w.isFresh current) = true
      · rw [if_pos h, if_pos (by simpa using h)]
        rfl
      · rw [if_neg h, if_neg (by simpa using h)]
        rfl

namespace Traffic

-- =============================================================== histories

variable {t t' : Traffic} {i steps : Nat} {m : Move} {ms : List Move}

/-- What can come of a scheduler that nobody has used, where every text that is
asked for comes. -/
inductive Reached : Traffic → Prop where
  | start (environment : Environment) (provider : Provider) (listeners : Nat) :
      Reached (.start environment provider listeners)
  | move {t t' : Traffic} {steps : Nat} {m : Move} (h : Reached t)
      (hcomes : t.world.provider.failing = none)
      (hm : t.move? steps m = some t') : Reached t'

theorem sound_start (environment : Environment) (provider : Provider)
    (listeners : Nat) : (start environment provider listeners).Sound :=
  ⟨⟨nofun, nofun⟩, nofun, nofun, nofun, nofun, nofun⟩

/-- All that an operation of a worker can do: it is gone, or has advanced. -/
theorem work?_cases (hcomes : t.world.provider.failing = none)
    (hm : t.work? steps i = some t') :
    ∃ k w, t.world.workers[i]? = some k ∧ w.provider = t.world.provider
      ∧ (k.stage = .following ∧ w = t.world
          ∧ t' = ⟨{ w with workers := t.world.workers.eraseIdx i },
            t.callsAfter k, t.holder⟩
        ∨ k.stage ≠ .following ∧ ∃ stage,
          Advances t.world.flights k stage w.flights
            ∧ t' = ⟨{ w with workers := t.world.workers.set i { k with stage } },
              t.callsAfter k, t.holder⟩) := by
  obtain ⟨k, hk, hm⟩ := Option.bind_eq_some_iff.1 hm
  dsimp only at hm
  split at hm
  · rename_i hstage
    cases hm
    exact ⟨k, t.world, hk, rfl, Or.inl ⟨hstage, rfl, rfl⟩⟩
  · rename_i hstage
    split at hm
    · cases hm
    · obtain ⟨⟨w, after⟩, hmove, hm⟩ := Option.bind_eq_some_iff.1 hm
      obtain ⟨-, hprovider, stage, rfl, hadvances⟩ :=
        advances_of_move? hmove hstage hcomes
      cases hm
      exact ⟨k, w, hk, hprovider, Or.inr ⟨hstage, stage, hadvances, rfl⟩⟩

theorem Sound.work (h : t.Sound) (hcomes : t.world.provider.failing = none)
    (hm : t.work? steps i = some t') : t'.Sound := by
  obtain ⟨k, w, hk, -, ⟨hstage, rfl, rfl⟩ | ⟨hstage, stage, hadvances, rfl⟩⟩ :=
    work?_cases hcomes hm
  · have hgone : Sound ⟨{ t.world with
        workers := t.world.workers.eraseIdx i }, t.calls, t.holder⟩ :=
      h.gone hk hstage rfl rfl
    refine hgone.requested (t.world.stale? k.id).toList rfl ?_
    unfold callsAfter
    rw [hstage]
  · exact h.worked hk rfl rfl hadvances rfl hstage

theorem Sound.move (h : t.Sound) (hcomes : t.world.provider.failing = none)
    (hm : t.move? steps m = some t') : t'.Sound := by
  cases m with
  | request id =>
      cases hm
      exact h.requested [id] rfl rfl
  | call number =>
      obtain ⟨c, hc, hm⟩ := Option.bind_eq_some_iff.1 hm
      obtain ⟨holder, -, hm⟩ := Option.bind_eq_some_iff.1 hm
      cases hm
      exact h.called hc holder
  | work number => exact h.work hcomes hm
  | provide provider =>
      cases hm
      exact ⟨h.flights, h.workers, h.calls, h.held, h.made, h.late⟩

/-- Whatever has happened, in whatever order. -/
theorem Reached.sound (h : t.Reached) : t.Sound := by
  induction h with
  | start => exact sound_start ..
  | move _ hcomes hm ih => exact ih.move hcomes hm

/-- The move does not bring in a text that fails to come. -/
def isSafe : Move → Bool
  | .provide provider => provider.failing.isNone
  | _ => true

theorem provider_move (c : Call) (w : World) :
    (c.move w).1.provider = w.provider := by
  unfold Call.move
  cases c.stage with
  | claiming flight =>
      dsimp only
      split <;> rfl
  | _ => rfl

theorem move?_failing (hcomes : t.world.provider.failing = none)
    (hsafe : isSafe m = true) (hm : t.move? steps m = some t') :
    t'.world.provider.failing = none := by
  cases m with
  | request id =>
      cases hm
      exact hcomes
  | call number =>
      obtain ⟨c, -, hm⟩ := Option.bind_eq_some_iff.1 hm
      obtain ⟨holder, -, hm⟩ := Option.bind_eq_some_iff.1 hm
      cases hm
      show (c.move t.world).1.provider.failing = none
      rw [provider_move]
      exact hcomes
  | work number =>
      obtain ⟨k, w, -, hprovider, ⟨-, -, rfl⟩ | ⟨-, stage, -, rfl⟩⟩ :=
        work?_cases hcomes hm
      · exact (congrArg Provider.failing hprovider).trans hcomes
      · exact (congrArg Provider.failing hprovider).trans hcomes
  | provide provider =>
      cases hm
      exact Option.isNone_iff_eq_none.1 hsafe

theorem Reached.moves (h : t.Reached)
    (hcomes : t.world.provider.failing = none) (hsafe : ∀ m ∈ ms, isSafe m = true)
    (hm : t.moves? steps ms = some t') : t'.Reached := by
  induction ms generalizing t with
  | nil =>
      cases hm
      exact h
  | cons m ms ih =>
      obtain ⟨u, hu, hm⟩ := Option.bind_eq_some_iff.1 hm
      obtain ⟨hm₀, hms⟩ := List.forall_mem_cons.1 hsafe
      exact ih (h.move hcomes hu) (move?_failing hcomes hm₀ hu) hms hm

end Traffic

-- ================================================================= requests

section Requests

variable {t : Traffic} {id : String}

/-- Where no worker of a source is at work any more and all calls for it have
returned, those that started a worker were served, and so were those that did
not, but for marks that were left when nobody was to look for them. -/
theorem requests_served (h : t.Reached)
    (hworkers : ∀ k ∈ t.world.workers, k.id ≠ id)
    (hcalls : ∀ c ∈ t.calls, c.id = id → ∃ outcome, c.stage = .returned outcome) :
    ∀ c ∈ t.calls, c.id = id →
      c.served = true ∨ c.stage = .returned .coalesced ∧ c.late = true := by
  intro c hc hid
  obtain ⟨outcome, hstage⟩ := hcalls c hc hid
  have hnone : ∀ p, ¬ t.HasWorker id p :=
    fun p ⟨k, hk, hkid, _⟩ => hworkers k hk hkid
  rcases h.sound.made c hc (by rw [hstage]; rfl) with hs | hl | hpending
  · exact Or.inl hs
  · have hmark := h.sound.late c hc hl
    rw [hstage] at hmark ⊢
    cases outcome with
    | started => cases hmark
    | coalesced => exact Or.inr ⟨rfl, hl⟩
  · rw [hid] at hpending
    rcases hpending with hreads | ⟨d, hd, hdid, hclaim⟩ | ⟨-, hlooks⟩
    · exact absurd hreads (hnone _)
    · obtain ⟨_, hreturned⟩ := hcalls d hd hdid
      rw [hreturned] at hclaim
      cases hclaim
    · exact absurd hlooks (hnone _)

end Requests

/-- A source is requested, and again while its text is parsed: the worker finds
the mark and makes a second pass. -/
theorem requests_served_again :
    ∃ t : Traffic, t.Reached ∧ t.world.workers = []
      ∧ t.calls.map (·.stage) = [.returned .started, .returned .coalesced]
      ∧ ∀ c ∈ t.calls, c.id = "a" →
        c.served = true ∨ c.stage = .returned .coalesced ∧ c.late = true := by
  let first : Traffic := .start {} { texts := [("a", "")] } 1
  let ms : List Move := [.request "a"] ++ .replicate 4 (.call 0)
    ++ .replicate 3 (.work 0) ++ [.request "a"] ++ .replicate 4 (.call 1)
    ++ .replicate 10 (.work 0)
  have hread : (first.moves? 40 ms).any (fun t => t.world.workers.isEmpty
      && decide (t.calls
        = [{ id := "a", stage := .returned .started, served := true },
          { id := "a", stage := .returned .coalesced, served := true }])) = true := by
    decide +kernel
  obtain ⟨t, hmoves, hsays⟩ := (Option.any_eq_true _ _).1 hread
  obtain ⟨hworkers, hcalls⟩ := Bool.and_eq_true_iff.1 hsays
  have hnone := List.isEmpty_iff.1 hworkers
  have hcalls := of_decide_eq_true hcalls
  have ht : t.Reached := (Traffic.Reached.start ..).moves rfl (by decide) hmoves
  refine ⟨t, ht, hnone, hcalls ▸ rfl, requests_served ht (hnone ▸ nofun) ?_⟩
  rw [hcalls]
  simp

/-- A source gets another text while its worker parses the one before, and is
requested again. The call finds the flight held; the worker lets go of it and
looks for a mark in vain; only then the call leaves one. Nobody is left, and
what is kept is not of the text. -/
theorem request_lost :
    ∃ (t : Traffic) (id : String), t.Reached
      ∧ (∀ k ∈ t.world.workers, k.id ≠ id)
      ∧ (∀ c ∈ t.calls, c.id = id → ∃ outcome, c.stage = .returned outcome)
      ∧ (∃ c ∈ t.calls, c.id = id ∧ c.served = false)
      ∧ t.world.isFresh id = false := by
  let first : Traffic := .start {} { texts := [("a", "")] } 1
  let ms : List Move := [.request "a"] ++ .replicate 4 (.call 0)
    ++ .replicate 3 (.work 0) ++ [.provide { texts := [("a", ".")] }, .request "a"]
    ++ .replicate 2 (.call 1) ++ .replicate 5 (.work 0) ++ .replicate 2 (.call 1)
  have hread : (first.moves? 40 ms).any (fun t => t.world.workers.isEmpty
      && (!t.world.isFresh "a" && decide (t.calls
        = [{ id := "a", stage := .returned .started, served := true },
          { id := "a", stage := .returned .coalesced, late := true }]))) = true := by
    decide +kernel
  obtain ⟨t, hmoves, hsays⟩ := (Option.any_eq_true _ _).1 hread
  obtain ⟨hworkers, hsays⟩ := Bool.and_eq_true_iff.1 hsays
  obtain ⟨hstale, hcalls⟩ := Bool.and_eq_true_iff.1 hsays
  have hnone := List.isEmpty_iff.1 hworkers
  have hcalls := of_decide_eq_true hcalls
  have ht : t.Reached := (Traffic.Reached.start ..).moves rfl (by decide) hmoves
  refine ⟨t, "a", ht, hnone ▸ nofun, ?_, ?_, by simpa using hstale⟩
  · rw [hcalls]
    simp
  · rw [hcalls]
    exact ⟨_, List.mem_cons_of_mem _ (List.mem_singleton.2 rfl), rfl, rfl⟩

end AblOutline.Scheduler
