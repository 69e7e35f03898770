/-
What one operation keeps. Where a flight runs somebody holds it: a worker, or a
call that is to start one (`Held`). Where a call has taken the flight of its
source or left its mark in time, somebody will ask for the text of the source:
a worker that is to ask for it first, or one that is to look for the mark
(`Pending`). An operation of a worker keeps both (`Sound.worked`), and so does
an operation of a call (`Sound.called`).
-/
import AblOutline.Proofs.Traffic.Flights

namespace AblOutline.Scheduler

-- =============================================================== invariant

namespace Stage

/-- A worker holds its flight. -/
def holds : Stage → Bool
  | clearing | starting | calling | called _ | checking | releasing => true
  | _ => false

/-- A worker is to ask for the text before anything else. -/
def reads : Stage → Bool
  | clearing | starting | calling => true
  | _ => false

/-- A worker is to look for a mark, or has found one. -/
def looks : Stage → Bool
  | called _ | checking | releasing | rechecking | reclaiming => true
  | _ => false

/-- Who holds a flight reads or looks. -/
theorem reads_or_looks {stage : Stage} (h : stage.holds = true) :
    stage.reads = true ∨ stage.looks = true := by
  cases stage <;> first | exact Or.inl rfl | exact Or.inr rfl | cases h

theorem looks_of_mayReturn {stage : Stage} (h : stage.mayReturn = true) :
    stage.looks = true := by
  cases stage <;> first | rfl | cases h

end Stage

namespace CallStage

/-- The flight that a call has found. -/
def flight? : CallStage → Option Nat
  | claiming n | marking n | leaving n _ | spawning n => some n
  | _ => none

/-- The call has taken a flight for a worker that is not there yet. -/
def isClaim : CallStage → Bool
  | leaving _ claimed => claimed
  | spawning _ => true
  | _ => false

/-- The call has found its flight held and left its mark. -/
def isMark : CallStage → Bool
  | leaving _ claimed => !claimed
  | returned .coalesced => true
  | _ => false

/-- The call has taken the flight or left its mark. -/
def isMade : CallStage → Bool
  | leaving _ _ | spawning _ | returned _ => true
  | _ => false

end CallStage

namespace Traffic

variable {t t' : Traffic} {id : String} {i : Nat} {k : Worker} {c : Call}
  {stage : Stage} {p : Stage → Bool}

/-- A worker of a source is at such a stage. -/
def HasWorker (t : Traffic) (id : String) (p : Stage → Bool) : Prop :=
  ∃ k ∈ t.world.workers, k.id = id ∧ p k.stage = true

/-- A call for a source has taken its flight and is to start a worker. -/
def HasClaim (t : Traffic) (id : String) : Prop :=
  ∃ c ∈ t.calls, c.id = id ∧ c.stage.isClaim = true

/-- Somebody holds the flight of a source. -/
def Held (t : Traffic) (id : String) : Prop :=
  t.HasWorker id Stage.holds ∨ t.HasClaim id

/-- The text of a source will be asked for. -/
def Pending (t : Traffic) (id : String) : Prop :=
  t.HasWorker id Stage.reads ∨ t.HasClaim id
    ∨ t.world.flights.isDue id = true ∧ t.HasWorker id Stage.looks

/-- Flights that run are held, and every request that was made was served,
came too late or will be served. -/
structure Sound (t : Traffic) : Prop where
  flights : t.world.flights.WellFormed
  workers : ∀ k ∈ t.world.workers,
    t.world.flights.number? k.id = some k.flight
  calls : ∀ c ∈ t.calls, ∀ n, c.stage.flight? = some n →
    t.world.flights.number? c.id = some n
  held : ∀ id, t.world.flights.isRunning id = true → t.Held id
  made : ∀ c ∈ t.calls, c.stage.isMade = true →
    c.served = true ∨ c.late = true ∨ t.Pending c.id
  late : ∀ c ∈ t.calls, c.late = true → c.stage.isMark = true

/-- Who holds a flight that is marked will serve. -/
theorem Held.pending (h : t.Held id) (hdue : t.world.flights.isDue id = true) :
    t.Pending id := by
  obtain ⟨k, hk, hid, hholds⟩ | hclaim := h
  · rcases Stage.reads_or_looks hholds with hreads | hlooks
    · exact Or.inl ⟨k, hk, hid, hreads⟩
    · exact Or.inr (Or.inr ⟨hdue, k, hk, hid, hlooks⟩)
  · exact Or.inr (Or.inl hclaim)

-- ======================================================== steps of workers

section Workers

/-- An entry that is replaced was the one, or is still there. -/
theorem mem_set_of_mem {α : Type} {l : List α} {i : Nat} {a b : α} (x : α)
    (ha : l[i]? = some a) (hb : b ∈ l) : b = a ∨ b ∈ l.set i x := by
  obtain ⟨j, hj⟩ := List.mem_iff_getElem?.1 hb
  by_cases hij : i = j
  · subst hij
    rw [ha] at hj
    exact Or.inl (Option.some.inj hj).symm
  · refine Or.inr (List.mem_iff_getElem?.2 ⟨j, ?_⟩)
    rw [List.getElem?_set_ne hij]
    exact hj

theorem mem_eraseIdx_of_mem {α : Type} {l : List α} {i : Nat} {a b : α}
    (ha : l[i]? = some a) (hb : b ∈ l) : b = a ∨ b ∈ l.eraseIdx i := by
  obtain ⟨j, hj⟩ := List.mem_iff_getElem?.1 hb
  by_cases hij : j = i
  · subst hij
    rw [ha] at hj
    exact Or.inl (Option.some.inj hj).symm
  · exact Or.inr (List.mem_eraseIdx_iff_getElem?.2 ⟨j, hij, hj⟩)

theorem mem_set_self {α : Type} {l : List α} {i : Nat} {a : α} (x : α)
    (ha : l[i]? = some a) : x ∈ l.set i x :=
  List.mem_set (List.getElem?_eq_some_iff.1 ha).1 x

/-- A worker that was at such a stage was the one that moved, or still is. -/
theorem HasWorker.worked (h : t.HasWorker id p)
    (hk : t.world.workers[i]? = some k)
    (hw : t'.world.workers = t.world.workers.set i { k with stage }) :
    (id = k.id ∧ p k.stage = true) ∨ t'.HasWorker id p := by
  obtain ⟨j, hj, hid, hp⟩ := h
  rcases mem_set_of_mem { k with stage } hk hj with rfl | hmem
  · exact Or.inl ⟨hid.symm, hp⟩
  · exact Or.inr ⟨j, hw ▸ hmem, hid, hp⟩

theorem hasWorker_worked (hk : t.world.workers[i]? = some k)
    (hw : t'.world.workers = t.world.workers.set i { k with stage })
    (hp : p stage = true) : t'.HasWorker k.id p :=
  ⟨{ k with stage }, hw ▸ mem_set_self _ hk, rfl, hp⟩

/-- Calls may get served, and stay as they are otherwise. -/
theorem mem_callsAfter (hstage : k.stage ≠ .following)
    (hc : c ∈ t.callsAfter k) :
    ∃ d ∈ t.calls, d.id = c.id ∧ d.stage = c.stage ∧ d.late = c.late
      ∧ (d.served = true → c.served = true)
      ∧ (k.stage = .calling → c.id = k.id → c.served = true) := by
  unfold callsAfter at hc
  cases hk : k.stage with
  | calling =>
      rw [hk] at hc
      obtain ⟨d, hd, rfl⟩ := List.mem_map.1 hc
      refine ⟨d, hd, ?_⟩
      split
      · exact ⟨rfl, rfl, rfl, fun _ => rfl, fun _ _ => rfl⟩
      · rename_i hid
        exact ⟨rfl, rfl, rfl, fun h => h, fun _ h => absurd h hid⟩
  | following => exact absurd hk hstage
  | _ =>
      rw [hk] at hc
      exact ⟨c, hc, rfl, rfl, rfl, fun h => h, nofun⟩

theorem HasClaim.worked (h : t.HasClaim id) (hc : t'.calls = t.callsAfter k) :
    t'.HasClaim id := by
  obtain ⟨c, hmem, hid, hclaim⟩ := h
  unfold HasClaim
  rw [hc]
  unfold callsAfter
  split
  · refine ⟨if c.id = k.id then { c with served := true } else c,
      List.mem_map_of_mem hmem, ?_⟩
    split <;> exact ⟨hid, hclaim⟩
  · exact ⟨c, List.mem_append_left _ hmem, hid, hclaim⟩
  · exact ⟨c, hmem, hid, hclaim⟩

variable {f : Flights} (h : t.Sound) (hk : t.world.workers[i]? = some k)
  (hw : t'.world.workers = t.world.workers.set i { k with stage })
  (hf : t'.world.flights = f) (ha : Advances t.world.flights k stage f)
  (hc : t'.calls = t.callsAfter k)

include h hk hw hf ha hc

/-- The flight of the worker is still held if it runs. -/
theorem Sound.held_worked (hrun : f.isRunning k.id = true) : t'.Held k.id := by
  have hnumber := h.workers k (List.mem_of_getElem? hk)
  -- what others hold they still do
  have hkept : k.stage.holds = false →
      t.world.flights.isRunning k.id = true → t'.Held k.id := by
    intro hholds hrun
    rcases h.held k.id hrun with hworker | hclaim
    · rcases hworker.worked hk hw with ⟨-, hp⟩ | hworker
      · rw [hholds] at hp
        cases hp
      · exact Or.inl hworker
    · exact Or.inr (hclaim.worked hc)
  cases ha with
  | release hstage =>
      have hfree := Flights.shows_change h.flights hnumber (·.running)
        (fun x => { x with running := false }) k.id
      rw [if_pos rfl] at hfree
      cases hfree.symm.trans hrun
  | find hstage => exact hkept (by rw [hstage]; rfl) hrun
  | miss hstage => exact hkept (by rw [hstage]; rfl) hrun
  | lose hstage => exact hkept (by rw [hstage]; rfl) hrun
  | _ => exact Or.inl (hasWorker_worked hk hw rfl)

/-- What the worker was to serve will still be served, if it did not just ask
for the text. -/
theorem Sound.pending_worked (hcall : k.stage ≠ .calling)
    (hp : t.Pending k.id) : t'.Pending k.id := by
  have hnumber := h.workers k (List.mem_of_getElem? hk)
  have hnumber' : t'.world.flights.number? k.id = some k.flight := by
    rw [hf, ha.number? k.id, hnumber]
  -- what others are to do is still to be done
  have hkept : k.stage.reads = false → stage.looks = true →
      (t.world.flights.isDue k.id = true → f.isDue k.id = true) →
      t'.Pending k.id := by
    intro hreads hlooks hdue
    rcases hp with hworker | hclaim | ⟨hmark, -⟩
    · rcases hworker.worked hk hw with ⟨-, hp⟩ | hworker
      · rw [hreads] at hp
        cases hp
      · exact Or.inl hworker
    · exact Or.inr (Or.inl (hclaim.worked hc))
    · exact Or.inr (Or.inr ⟨hf ▸ hdue hmark, hasWorker_worked hk hw hlooks⟩)
  cases ha with
  | clear => exact Or.inl (hasWorker_worked hk hw rfl)
  | start => exact Or.inl (hasWorker_worked hk hw rfl)
  | again => exact Or.inl (hasWorker_worked hk hw rfl)
  | reclaim => exact Or.inl (hasWorker_worked hk hw rfl)
  | call hstage => exact absurd hstage hcall
  | parse text hstage => exact hkept (by rw [hstage]; rfl) rfl id
  | done hstage => exact hkept (by rw [hstage]; rfl) rfl id
  | find hstage => exact hkept (by rw [hstage]; rfl) rfl id
  | release hstage =>
      refine hkept (by rw [hstage]; rfl) rfl fun hdue => ?_
      have hsame := Flights.shows_change h.flights hnumber (·.rerun)
        (fun x => { x with running := false }) k.id
      rw [if_pos rfl] at hsame
      rw [Flights.isDue_of_number? hnumber] at hdue
      exact hsame.trans hdue
  | miss hstage hm =>
      -- there is no mark, so somebody else will serve
      rcases hp with hworker | hclaim | ⟨hmark, -⟩
      · rcases hworker.worked hk hw with ⟨-, hp⟩ | hworker
        · rw [hstage] at hp
          cases hp
        · exact Or.inl hworker
      · exact Or.inr (Or.inl (hclaim.worked hc))
      · rw [Flights.isDue_of_number? hnumber, hm] at hmark
        cases hmark
  | lose hstage hr =>
      -- somebody else holds the flight
      have hrun : t.world.flights.isRunning k.id = true := by
        unfold Flights.reclaim? at hr
        rw [if_pos hnumber] at hr
        rw [Flights.isRunning_of_number? hnumber]
        exact Flights.running_of_claim?_none hr
      have hheld := h.held_worked hk hw hf (.lose hstage hr) hc hrun
      rcases hp with hworker | hclaim | ⟨hmark, -⟩
      · rcases hworker.worked hk hw with ⟨-, hp⟩ | hworker
        · rw [hstage] at hp
          cases hp
        · exact Or.inl hworker
      · exact Or.inr (Or.inl (hclaim.worked hc))
      · exact hheld.pending (hf ▸ hmark)

/-- A worker does one operation. -/
theorem Sound.worked (hstage : k.stage ≠ .following) : t'.Sound := by
  have hnumber := h.workers k (List.mem_of_getElem? hk)
  have hother : ∀ {id p}, id ≠ k.id → t.HasWorker id p → t'.HasWorker id p :=
    fun hid hworker => (hworker.worked hk hw).resolve_left fun h => hid h.1
  refine ⟨hf ▸ ha.wellFormed h.flights, fun j hj => ?_, fun c hmem n hn => ?_,
    fun id hrun => ?_, fun c hmem hmade => ?_, fun c hmem hlate => ?_⟩
  · rw [hf, ha.number?]
    rw [hw] at hj
    rcases List.mem_or_eq_of_mem_set hj with hj | rfl
    · exact h.workers j hj
    · exact hnumber
  · rw [hc] at hmem
    obtain ⟨d, hd, hid, hsame, -⟩ := mem_callsAfter hstage hmem
    rw [hf, ha.number?, ← hid]
    exact h.calls d hd n (hsame ▸ hn)
  · rw [hf] at hrun
    by_cases hid : id = k.id
    · subst hid
      exact h.held_worked hk hw hf ha hc hrun
    · have hsame := ha.shows_other (p := (·.running)) h.flights hnumber hid
      exact (h.held id (hsame.symm.trans hrun)).imp (hother hid) (·.worked hc)
  · rw [hc] at hmem
    obtain ⟨d, hd, hid, hsame, hlate, hserved, hcall⟩ :=
      mem_callsAfter hstage hmem
    rcases h.made d hd (hsame ▸ hmade) with hs | hl | hpending
    · exact Or.inl (hserved hs)
    · exact Or.inr (Or.inl (hlate ▸ hl))
    rw [hid] at hpending
    by_cases hk' : c.id = k.id
    · by_cases hcalling : k.stage = .calling
      · exact Or.inl (hcall hcalling hk')
      · rw [hk'] at hpending ⊢
        exact Or.inr (Or.inr (h.pending_worked hk hw hf ha hc hcalling hpending))
    · have hdue := ha.shows_other (p := (·.rerun)) h.flights hnumber hk'
      refine Or.inr (Or.inr (hpending.imp (hother hk') (Or.imp (·.worked hc) ?_)))
      exact fun ⟨hmark, hworker⟩ =>
        ⟨hf ▸ hdue.trans hmark, hother hk' hworker⟩
  · rw [hc] at hmem
    obtain ⟨d, hd, -, hsame, hsame', -⟩ := mem_callsAfter hstage hmem
    exact hsame ▸ h.late d hd (hsame' ▸ hlate)

end Workers

-- ========================================================== steps of calls

section Calls

/-- More calls that have not begun. -/
theorem Sound.requested (h : t.Sound) (ids : List String)
    (hw : t'.world = t.world)
    (hc : t'.calls = t.calls ++ ids.map fun id => ({ id } : Call)) : t'.Sound := by
  have hold : ∀ {c}, c ∈ t.calls → c ∈ t'.calls :=
    fun hmem => hc ▸ List.mem_append_left _ hmem
  have hclaim : ∀ {id}, t.HasClaim id → t'.HasClaim id :=
    fun ⟨c, hmem, hid, hclaim⟩ => ⟨c, hold hmem, hid, hclaim⟩
  have hworker : ∀ {id p}, t.HasWorker id p → t'.HasWorker id p :=
    fun ⟨k, hk, hid⟩ => ⟨k, hw ▸ hk, hid⟩
  have hnew : ∀ {c}, c ∈ t'.calls →
      c ∈ t.calls ∨ c.stage = .entering ∧ c.late = false := by
    intro c hmem
    rw [hc] at hmem
    rcases List.mem_append.1 hmem with hmem | hmem
    · exact Or.inl hmem
    · obtain ⟨id, -, rfl⟩ := List.mem_map.1 hmem
      exact Or.inr ⟨rfl, rfl⟩
  refine ⟨hw ▸ h.flights, hw ▸ h.workers, fun c hmem n hn => ?_,
    fun id hrun => ?_, fun c hmem hmade => ?_, fun c hmem hlate => ?_⟩
  · rcases hnew hmem with hmem | ⟨hstage, -⟩
    · exact hw ▸ h.calls c hmem n hn
    · rw [hstage] at hn
      cases hn
  · exact (h.held id (hw ▸ hrun)).imp hworker hclaim
  · rcases hnew hmem with hmem | ⟨hstage, -⟩
    · refine (h.made c hmem hmade).imp_right (Or.imp_right fun hp => ?_)
      refine hp.imp hworker (Or.imp hclaim ?_)
      exact fun ⟨hmark, hlooks⟩ => ⟨hw ▸ hmark, hworker hlooks⟩
    · rw [hstage] at hmade
      cases hmade
  · rcases hnew hmem with hmem | ⟨-, hnot⟩
    · exact h.late c hmem hlate
    · rw [hnot] at hlate
      cases hlate

/-- A worker that is done is gone. -/
theorem Sound.gone (h : t.Sound) (hk : t.world.workers[i]? = some k)
    (hstage : k.stage = .following)
    (hw : t'.world = { t.world with workers := t.world.workers.eraseIdx i })
    (hc : t'.calls = t.calls) : t'.Sound := by
  have hflights : t'.world.flights = t.world.flights := by rw [hw]
  have hclaim : ∀ {id}, t.HasClaim id → t'.HasClaim id :=
    fun ⟨c, hmem, hid⟩ => ⟨c, hc ▸ hmem, hid⟩
  have hworker : ∀ {id p}, p .following = false → t.HasWorker id p →
      t'.HasWorker id p := by
    rintro id p hp ⟨j, hj, hid, hpj⟩
    rcases mem_eraseIdx_of_mem hk hj with rfl | hmem
    · rw [hstage, hp] at hpj
      cases hpj
    · exact ⟨j, hw ▸ hmem, hid, hpj⟩
  refine ⟨hflights ▸ h.flights, fun j hj => ?_, hc ▸ hflights ▸ h.calls,
    fun id hrun => ?_, fun c hmem hmade => ?_, hc ▸ h.late⟩
  · rw [hw] at hj
    rw [hflights]
    exact h.workers j (List.mem_of_mem_eraseIdx hj)
  · exact (h.held id (hflights ▸ hrun)).imp (hworker rfl) hclaim
  · refine (h.made c (hc ▸ hmem) hmade).imp_right (Or.imp_right fun hp => ?_)
    refine hp.imp (hworker rfl) (Or.imp hclaim ?_)
    exact fun ⟨hmark, hlooks⟩ => ⟨hflights ▸ hmark, hworker rfl hlooks⟩

/-- What one operation of a call is to keep: sources find their flights again,
no worker or mark goes away, and a flight that the call has taken stays
taken. -/
structure Proceeds (t t' : Traffic) (i : Nat) (c d : Call) : Prop where
  calls : t'.calls = t.calls.set i d
  id : d.id = c.id
  flights : t'.world.flights.WellFormed
  number : ∀ id n, t.world.flights.number? id = some n →
    t'.world.flights.number? id = some n
  found : ∀ n, d.stage.flight? = some n →
    t'.world.flights.number? c.id = some n
  workers : ∀ k ∈ t.world.workers, k ∈ t'.world.workers
  spawned : ∀ k ∈ t'.world.workers, k ∉ t.world.workers →
    t'.world.flights.number? k.id = some k.flight
  claim : c.stage.isClaim = true → d.stage.isClaim = true
    ∨ ∃ k ∈ t'.world.workers, k.id = c.id ∧ k.stage = .clearing
  running : ∀ id, t'.world.flights.isRunning id = true →
    t.world.flights.isRunning id = true ∨ id = c.id ∧ d.stage.isClaim = true
  due : ∀ id, t.world.flights.isDue id = true →
    t'.world.flights.isDue id = true
  made : d.stage.isMade = true →
    d.served = true ∨ d.late = true ∨ t'.Pending c.id
  late : d.late = true → d.stage.isMark = true

theorem Sound.proceeds {d : Call} (h : t.Sound) (hc : t.calls[i]? = some c)
    (hp : Proceeds t t' i c d) : t'.Sound := by
  have hold : ∀ {x}, x ∈ t'.calls → x ∈ t.calls ∨ x = d :=
    fun hx => List.mem_or_eq_of_mem_set (hp.calls ▸ hx)
  have hclaim : ∀ {id}, t.HasClaim id → t'.HasClaim id
      ∨ ∃ k ∈ t'.world.workers, k.id = id ∧ k.stage = .clearing := by
    rintro id ⟨x, hx, hid, hstage⟩
    rcases mem_set_of_mem d hc hx with rfl | hx
    · rcases hp.claim hstage with hd | hworker
      · exact Or.inl ⟨d, hp.calls ▸ mem_set_self d hc, hp.id.trans hid, hd⟩
      · exact Or.inr (hid ▸ hworker)
    · exact Or.inl ⟨x, hp.calls ▸ hx, hid, hstage⟩
  have hworker : ∀ {id p}, t.HasWorker id p → t'.HasWorker id p :=
    fun ⟨k, hk, hid⟩ => ⟨k, hp.workers k hk, hid⟩
  refine ⟨hp.flights, fun k hk => ?_, fun x hx n hn => ?_, fun id hrun => ?_,
    fun x hx hmade => ?_, fun x hx hlate => ?_⟩
  · by_cases hmem : k ∈ t.world.workers
    · exact hp.number _ _ (h.workers k hmem)
    · exact hp.spawned k hk hmem
  · rcases hold hx with hx | rfl
    · exact hp.number _ _ (h.calls x hx n hn)
    · exact hp.id ▸ hp.found n hn
  · rcases hp.running id hrun with hrun | ⟨rfl, hd⟩
    · rcases h.held id hrun with hholds | hclaimed
      · exact Or.inl (hworker hholds)
      · rcases hclaim hclaimed with hclaimed | ⟨k, hk, hid, hstage⟩
        · exact Or.inr hclaimed
        · exact Or.inl ⟨k, hk, hid, hstage ▸ rfl⟩
    · exact Or.inr ⟨d, hp.calls ▸ mem_set_self d hc, hp.id, hd⟩
  · rcases hold hx with hx | rfl
    · refine (h.made x hx hmade).imp_right (Or.imp_right fun hpending => ?_)
      rcases hpending with hreads | hclaimed | ⟨hmark, hlooks⟩
      · exact Or.inl (hworker hreads)
      · rcases hclaim hclaimed with hclaimed | ⟨k, hk, hid, hstage⟩
        · exact Or.inr (Or.inl hclaimed)
        · exact Or.inl ⟨k, hk, hid, hstage ▸ rfl⟩
      · exact Or.inr (Or.inr ⟨hp.due _ hmark, hworker hlooks⟩)
    · exact hp.id ▸ hp.made hmade
  · rcases hold hx with hx | rfl
    · exact h.late x hx hlate
    · exact hp.late hlate

/-- An operation that changes the flights alone. -/
theorem Proceeds.of_flights {f : Flights} {d : Call} {holder : Option Nat}
    (hid : d.id = c.id) (hf : f.WellFormed)
    (hnumber : ∀ id n, t.world.flights.number? id = some n →
      f.number? id = some n)
    (hfound : ∀ n, d.stage.flight? = some n → f.number? c.id = some n)
    (hclaim : c.stage.isClaim = true → d.stage.isClaim = true)
    (hrunning : ∀ id, f.isRunning id = true →
      t.world.flights.isRunning id = true ∨ id = c.id ∧ d.stage.isClaim = true)
    (hdue : ∀ id, t.world.flights.isDue id = true → f.isDue id = true)
    (hmade : d.stage.isMade = true → d.served = true ∨ d.late = true
      ∨ Pending ⟨{ t.world with flights := f }, t.calls.set i d, holder⟩ c.id)
    (hlate : d.late = true → d.stage.isMark = true) :
    Proceeds t ⟨{ t.world with flights := f }, t.calls.set i d, holder⟩ i c d where
  calls := rfl
  id := hid
  flights := hf
  number := hnumber
  found := hfound
  workers _ hk := hk
  spawned _ hk hn := absurd hk hn
  claim hc := Or.inl (hclaim hc)
  running := hrunning
  due := hdue
  made := hmade
  late := hlate

theorem HasClaim.set {w : World} {d : Call} {holder : Option Nat}
    (h : t.HasClaim id) (hc : t.calls[i]? = some c) (hid : d.id = c.id)
    (hclaim : c.stage.isClaim = true → d.stage.isClaim = true) :
    HasClaim ⟨w, t.calls.set i d, holder⟩ id := by
  obtain ⟨x, hx, hxid, hstage⟩ := h
  rcases mem_set_of_mem d hc hx with rfl | hx
  · exact ⟨d, mem_set_self d hc, hid.trans hxid, hclaim hstage⟩
  · exact ⟨x, hx, hxid, hstage⟩

/-- A call that leaves its mark in time will be served: who holds the flight,
or may take it back, finds the mark. -/
theorem Sound.marked {d : Call} {n : Nat} {holder : Option Nat} (h : t.Sound)
    (hc : t.calls[i]? = some c) (hid : d.id = c.id)
    (hclaim : c.stage.isClaim = true → d.stage.isClaim = true)
    (hn : t.world.flights.number? c.id = some n)
    (hleft : t.world.isLeft c.id n = false) :
    Pending ⟨{ t.world with flights := t.world.flights.mark n },
      t.calls.set i d, holder⟩ c.id := by
  have hdue : (t.world.flights.mark n).isDue c.id = true := by
    refine (Flights.shows_change h.flights hn (·.rerun) _ c.id).trans ?_
    rw [if_pos rfl]
  unfold World.isLeft at hleft
  rw [Bool.and_eq_false_iff] at hleft
  rcases hleft with hrun | hreturn
  · refine Held.pending ?_ hdue
    rw [Bool.not_eq_false', ← Flights.isRunning_of_number? hn] at hrun
    exact (h.held c.id hrun).imp (fun hworker => hworker)
      (·.set hc hid hclaim)
  · rw [Bool.not_eq_false', List.any_eq_true] at hreturn
    obtain ⟨k, hk, hsays⟩ := hreturn
    obtain ⟨hkid, hstage⟩ := Bool.and_eq_true_iff.1 hsays
    exact Or.inr (Or.inr ⟨hdue, k, hk, eq_of_beq hkid,
      Stage.looks_of_mayReturn hstage⟩)

/-- A call does one operation. -/
theorem Sound.called (h : t.Sound) (hc : t.calls[i]? = some c)
    (holder : Option Nat) :
    Sound ⟨(c.move t.world).1, t.calls.set i (c.move t.world).2, holder⟩ := by
  have hfound := h.calls c (List.mem_of_getElem? hc)
  have hmade := h.made c (List.mem_of_getElem? hc)
  have hlate := h.late c (List.mem_of_getElem? hc)
  have hnever : c.stage.isMark = false → ∀ stage : CallStage,
      c.late = true → stage.isMark = true := by
    intro hmark stage hl
    rw [hlate hl] at hmark
    cases hmark
  refine h.proceeds hc (d := (c.move t.world).2) ?_
  unfold Call.move
  cases hstage : c.stage with
  | entering =>
      refine .of_flights rfl (h.flights.enter c.id)
        (fun id n => Flights.number?_enter_of_some) (fun n hn => ?_)
        (by rw [hstage]; nofun) (fun id hrun => Or.inl ?_) (fun id hdue => ?_)
        nofun (hnever (by rw [hstage]; rfl) _)
      · cases hn
        exact Flights.number?_enter t.world.flights c.id
      · exact (Flights.shows_enter h.flights rfl).symm.trans hrun
      · exact (Flights.shows_enter h.flights rfl).trans hdue
  | claiming flight =>
      have hn := hfound flight (by rw [hstage]; rfl)
      dsimp only
      cases hclaim : t.world.flights.claim? flight with
      | none =>
          exact .of_flights rfl h.flights (fun id n h => h)
            (fun n hn' => by cases hn'; exact hn) (by rw [hstage]; nofun)
            (fun id => Or.inl) (fun id h => h) nofun
            (hnever (by rw [hstage]; rfl) _)
      | some flights =>
          obtain rfl := Flights.claim?_eq_some hclaim
          refine .of_flights rfl (h.flights.change _ _) (fun id n h => h)
            (fun n hn' => by cases hn'; exact hn) (by rw [hstage]; nofun)
            (fun id hrun => ?_) (fun id hdue => ?_)
            (fun _ => Or.inr (Or.inr (Or.inr (Or.inl ?_))))
            (hnever (by rw [hstage]; rfl) _)
          · by_cases hid : id = c.id
            · exact Or.inr ⟨hid, rfl⟩
            · have hshows := Flights.shows_change h.flights hn (·.running)
                (fun x => { x with running := true }) id
              rw [if_neg hid] at hshows
              exact Or.inl (hshows.symm.trans hrun)
          · have hshows := Flights.shows_change h.flights hn (·.rerun)
              (fun x => { x with running := true }) id
            refine hshows.trans ?_
            split
            · rename_i hid
              rw [← Flights.shows_of_number? (p := (·.rerun)) (hid ▸ hn)]
              exact hdue
            · exact hdue
          · exact ⟨_, mem_set_self _ hc, rfl, rfl⟩
  | marking flight =>
      have hn := hfound flight (by rw [hstage]; rfl)
      have hmarked : ∀ id, (t.world.flights.mark flight).isDue id
          = if id = c.id then true else t.world.flights.isDue id :=
        fun id => Flights.shows_change h.flights hn (·.rerun) _ id
      have hrunning : ∀ id, (t.world.flights.mark flight).isRunning id
          = t.world.flights.isRunning id := by
        intro id
        refine (Flights.shows_change h.flights hn (·.running) _ id).trans ?_
        split
        · rename_i hid
          exact (Flights.isRunning_of_number? (hid ▸ hn)).symm
        · rfl
      refine .of_flights rfl (h.flights.change _ _) (fun id n h => h)
        (fun n hn' => by cases hn'; exact hn) (by rw [hstage]; nofun)
        (fun id hrun => Or.inl (hrunning id ▸ hrun)) (fun id hdue => ?_)
        (fun _ => Or.inr ?_) (fun _ => rfl)
      · rw [hmarked]
        split <;> trivial
      · dsimp only
        cases hleft : t.world.isLeft c.id flight with
        | true => exact Or.inl rfl
        | false => exact Or.inr (h.marked hc rfl (by rw [hstage]; nofun) hn hleft)
  | leaving flight claimed =>
      have hn := hfound flight (by rw [hstage]; rfl)
      refine .of_flights rfl h.flights (fun id n h => h) (fun n hn' => ?_)
        (fun hclaim => ?_) (fun id => Or.inl) (fun id h => h) (fun _ => ?_)
        (fun hl => ?_)
      · cases claimed <;> cases hn'
        exact hn
      · rw [hstage] at hclaim
        cases hclaim
        rfl
      · cases claimed with
        | true => exact Or.inr (Or.inr (Or.inr (Or.inl
            ⟨_, mem_set_self _ hc, rfl, rfl⟩)))
        | false =>
            refine (hmade (by rw [hstage]; rfl)).imp_right (Or.imp_right ?_)
            exact Or.imp id (Or.imp_left fun hclaim =>
              hclaim.set hc rfl (by rw [hstage]; nofun))
      · have hmark := hlate hl
        rw [hstage] at hmark
        cases claimed with
        | true => cases hmark
        | false => rfl
  | spawning flight =>
      have hn := hfound flight (by rw [hstage]; rfl)
      have hnew : (⟨c.id, flight, .clearing⟩ : Worker)
          ∈ t.world.workers ++ [⟨c.id, flight, .clearing⟩] :=
        List.mem_append_right _ (List.mem_singleton.2 rfl)
      exact
        { calls := rfl
          id := rfl
          flights := h.flights
          number := fun id n h => h
          found := nofun
          workers := fun k hk => List.mem_append_left _ hk
          spawned := fun k hk hold => by
            rcases List.mem_append.1 hk with hk | hk
            · exact absurd hk hold
            · rw [List.mem_singleton.1 hk]
              exact hn
          claim := fun _ => Or.inr ⟨_, hnew, rfl, rfl⟩
          running := fun id => Or.inl
          due := fun id h => h
          made := fun _ => Or.inr (Or.inr (Or.inl ⟨_, hnew, rfl, rfl⟩))
          late := hnever (by rw [hstage]; rfl) _ }
  | returned outcome =>
      refine .of_flights rfl h.flights (fun id n h => h)
        (by rw [hstage]; nofun) (fun hclaim => hclaim) (fun id => Or.inl)
        (fun id h => h) (fun hstage' => ?_) hlate
      refine (hmade hstage').imp_right (Or.imp_right ?_)
      exact Or.imp id (Or.imp_left fun hclaim =>
        hclaim.set hc rfl fun hclaim => hclaim)

end Calls

end Traffic

end AblOutline.Scheduler
