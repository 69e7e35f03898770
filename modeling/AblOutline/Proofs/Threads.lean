/-
Who may parse a source. No two threads hold the same flight, and what is held is
what counts for the source (`Threads.Apart`); any operation keeps this. By
induction over what happens, a source is parsed by one worker at most
(`parses_alone`), also where it was removed while a worker was still to take its
flight back.
-/
import AblOutline.Proofs.Threads.Operations
import Mathlib.Logic.Function.Iterate

namespace AblOutline.Scheduler

-- =============================================================== invariant

/-- Threads fit the flights, no two hold the same, and who is inside the lock
has it. -/
structure Threads.Apart (t : Threads) : Prop where
  flights : t.scheduler.world.flights.WellFormed
  fits : ∀ x ∈ t.list, x.Fits t.scheduler.world.flights
  alone : ∀ (i j : Nat) (x y : Thread) (n : Nat), t.list[i]? = some x →
    t.list[j]? = some y → x.task.held? = some n → y.task.held? = some n → i = j
  inside : ∀ (i : Nat) (x : Thread), t.list[i]? = some x →
    x.task.isInside = true → t.holder = some i

namespace Threads

variable {t t' : Threads} {i steps : Nat} {x x' : Thread} {starts : Bool}
  {holder : Option Nat} {started : List Thread}

/-- A thread that is inside the lock after its operation has it then, and
nobody else loses it. -/
theorem holder_of_lock? (h : t.lock? i x = some holder)
    (hinside : x.task.isInside = true → t.holder = some i) :
    (x.staysInside = true → holder = some i)
      ∧ ∀ j, j ≠ i → t.holder = some j → holder = some j := by
  unfold lock? at h
  unfold Thread.staysInside
  split at h
  · split at h
    · cases h
    · rename_i hnone
      cases h
      refine ⟨fun _ => rfl, fun j _ hj => ?_⟩
      rw [hj] at hnone
      exact absurd rfl hnone
  · rename_i hlocks
    split at h
    · rename_i hunlocks
      cases h
      refine ⟨fun hstays => ?_, fun j hji hj => ?_⟩
      · simp [hlocks, hunlocks] at hstays
      · have hi := hinside (Thread.isInside_of_unlocks hunlocks)
        exact absurd (Option.some.inj (hj.symm.trans hi)) hji
    · cases h
      refine ⟨fun hstays => hinside ?_, fun j _ hj => hj⟩
      simp only [hlocks, Bool.false_or, Bool.and_eq_true] at hstays
      exact hstays.1

/-- Where a thread was replaced and another may have been started, each is one of
these or was there before. -/
theorem getElem?_replaced {l : List Thread} {j : Nat} {y : Thread}
    (hlt : i < l.length) (h : (l.set i x' ++ started)[j]? = some y) :
    j = i ∧ y = x' ∨ j ≠ i ∧ l[j]? = some y
      ∨ (started.length = 1 → j = l.length) ∧ y ∈ started := by
  by_cases hj : j < l.length
  · rw [List.getElem?_append_left (by rwa [List.length_set])] at h
    by_cases hij : i = j
    · subst hij
      rw [List.getElem?_set_self hlt] at h
      exact Or.inl ⟨rfl, (Option.some.inj h).symm⟩
    · rw [List.getElem?_set_ne hij] at h
      exact Or.inr (Or.inl ⟨Ne.symm hij, h⟩)
  · rw [List.getElem?_append_right (by rw [List.length_set]; omega),
      List.length_set] at h
    refine Or.inr (Or.inr ⟨fun hone => ?_, List.mem_of_getElem? h⟩)
    have := (List.getElem?_eq_some_iff.1 h).1
    omega

/-- What a thread does to the flights keeps the threads apart, where it is inside
the lock afterwards only if it has it, and nobody else loses it. -/
theorem Apart.operates {s' : Scheduler} (h : t.Apart) (hx : t.list[i]? = some x)
    (hop : Operates t.scheduler.world.flights x s'.world.flights x' started)
    (hself : x'.task.isInside = true → holder = some i)
    (hothers : ∀ j, j ≠ i → t.holder = some j → holder = some j) :
    Apart { scheduler := s', list := t.list.set i x' ++ started, holder } := by
  have hfits := h.fits x (List.mem_of_getElem? hx)
  have hlt : i < t.list.length := (List.getElem?_eq_some_iff.1 hx).1
  have hother : ∀ (j : Nat) (y : Thread), j ≠ i → t.list[j]? = some y →
      (∀ n, x.task.held? = some n → y.task.held? ≠ some n)
        ∧ (x.task.isInside = true → y.task.isInside = false) := by
    intro j y hji hy
    refine ⟨fun n hn hyn => hji (h.alone j i y x n hy hx hyn hn), fun hin => ?_⟩
    refine Bool.eq_false_iff.2 fun hyin => hji ?_
    exact Option.some.inj ((h.inside j y hy hyin).symm.trans (h.inside i x hx hin))
  have hnew : ∀ (j : Nat) (y : Thread) (n : Nat), j ≠ i → t.list[j]? = some y →
      x'.task.held? = some n → y.task.held? ≠ some n := by
    intro j y n hji hy hn hyn
    rcases hop.held_before hn with hbefore | hfree
    · exact (hother j y hji hy).1 n hbefore hyn
    · have hheld := (h.fits y (List.mem_of_getElem? hy)).held n hyn
      rw [hfree] at hheld
      cases hheld.2
  refine ⟨hop.wellFormed h.flights, fun y hy => ?_, fun j k y z n hj hk hyn hzn => ?_,
    fun j y hj hin => ?_⟩
  · obtain ⟨j, hj⟩ := List.mem_iff_getElem?.1 hy
    rcases getElem?_replaced hlt hj with ⟨-, rfl⟩ | ⟨hji, hy⟩ | ⟨-, hz⟩
    · exact hop.fits_self h.flights hfits
    · exact hop.fits_other h.flights hfits (h.fits y (List.mem_of_getElem? hy))
        (hother j y hji hy).1 (hother j y hji hy).2
    · exact hop.fits_started hfits hz
  · rcases getElem?_replaced hlt hj with ⟨rfl, rfl⟩ | ⟨hji, hy⟩ | ⟨hje, hy⟩ <;>
      rcases getElem?_replaced hlt hk with ⟨rfl, rfl⟩ | ⟨hki, hz⟩ | ⟨hke, hz⟩
    · rfl
    · exact absurd hzn (hnew k z n hki hz hyn)
    · cases (hop.held_started hz).1.symm.trans hyn
    · exact absurd hyn (hnew j y n hji hy hzn)
    · exact h.alone j k y z n hy hz hyn hzn
    · exact absurd hyn ((hother j y hji hy).1 n ((hop.held_started hz).2.trans hzn))
    · cases (hop.held_started hy).1.symm.trans hzn
    · exact absurd hzn ((hother k z hki hz).1 n ((hop.held_started hy).2.trans hyn))
    · exact (hje (hop.started_one hy)).trans (hke (hop.started_one hz)).symm
  · rcases getElem?_replaced hlt hj with ⟨rfl, rfl⟩ | ⟨hji, hy⟩ | ⟨-, hz⟩
    · exact hself hin
    · exact hothers j hji (h.inside j y hy hin)
    · cases (hop.outside_started hz).symm.trans hin

/-- An operation of a thread keeps the threads apart. -/
theorem Apart.run (h : t.Apart)
    (hcomes : t.scheduler.world.provider.failing = none)
    (hm : t.run? steps i starts = some t') : t'.Apart := by
  obtain ⟨x, hx, hm⟩ := Option.bind_eq_some_iff.1 hm
  obtain ⟨holder, hlock, hm⟩ := Option.bind_eq_some_iff.1 hm
  obtain ⟨⟨s', x', started⟩, hmove, hm⟩ := Option.bind_eq_some_iff.1 hm
  cases hm
  obtain ⟨-, hop, hstays⟩ := operates_of_move? hcomes hmove
  obtain ⟨hself, hothers⟩ := holder_of_lock? hlock (h.inside i x hx)
  exact h.operates hx hop (fun hin => hself (hstays hin)) hothers

-- =============================================================== histories

variable {a : Act} {as : List Act}

/-- What can come of a scheduler that nobody has used, where every text that is
asked for comes. -/
inductive Reached : Threads → Prop where
  | start (environment : Environment) (provider : Provider) (listeners : Nat) :
      Reached (.start environment provider listeners)
  | act {t t' : Threads} {steps : Nat} {a : Act} (h : Reached t)
      (hcomes : t.scheduler.world.provider.failing = none)
      (hm : t.act? steps a = some t') : Reached t'

theorem apart_start (environment : Environment) (provider : Provider)
    (listeners : Nat) : (start environment provider listeners).Apart :=
  ⟨⟨nofun, nofun⟩, nofun, nofun, nofun⟩

/-- A thread that begins holds nothing and has found nothing. -/
theorem Apart.begin (h : t.Apart) (hheld : x.task.held? = none)
    (hout : x.task.isInside = false) :
    Apart { t with list := t.list ++ [x] } := by
  have hx : x.Fits t.scheduler.world.flights := by
    refine ⟨fun n hn => ?_, fun n hn => ?_, fun n hn => ?_⟩
    · cases hheld.symm.trans hn
    · cases hout.symm.trans (Task.isInside_of_found? hn)
    · cases hout.symm.trans (Task.isInside_of_idle? hn)
  have hplace : ∀ (j : Nat) (y : Thread), (t.list ++ [x])[j]? = some y →
      t.list[j]? = some y ∨ y = x := by
    intro j y hj
    rcases Nat.lt_or_ge j t.list.length with hlt | hge
    · rw [List.getElem?_append_left hlt] at hj
      exact Or.inl hj
    · rw [List.getElem?_append_right hge] at hj
      exact Or.inr (List.mem_singleton.1 (List.mem_of_getElem? hj))
  refine ⟨h.flights, fun y hy => ?_, fun j k y z n hj hk hyn hzn => ?_,
    fun j y hj hin => ?_⟩
  · rcases List.mem_append.1 hy with hy | hy
    · exact h.fits y hy
    · exact List.mem_singleton.1 hy ▸ hx
  · rcases hplace j y hj with hj | rfl
    · rcases hplace k z hk with hk | rfl
      · exact h.alone j k y z n hj hk hyn hzn
      · cases hheld.symm.trans hzn
    · cases hheld.symm.trans hyn
  · rcases hplace j y hj with hj | rfl
    · exact h.inside j y hj hin
    · cases hout.symm.trans hin

theorem Apart.act (h : t.Apart)
    (hcomes : t.scheduler.world.provider.failing = none)
    (hm : t.act? steps a = some t') : t'.Apart := by
  cases a with
  | request id =>
      cases hm
      exact h.begin rfl rfl
  | remove id =>
      cases hm
      exact h.begin rfl rfl
  | run number starts => exact h.run hcomes hm
  | provide provider =>
      cases hm
      exact ⟨h.flights, h.fits, h.alone, h.inside⟩

/-- Whatever has happened, in whatever order. -/
theorem Reached.apart (h : t.Reached) : t.Apart := by
  induction h with
  | start => exact apart_start ..
  | act _ hcomes hm ih => exact ih.act hcomes hm

/-- What happens does not bring in a text that fails to come. -/
def isSafe : Act → Bool
  | .provide provider => provider.failing.isNone
  | _ => true

theorem act?_failing (hcomes : t.scheduler.world.provider.failing = none)
    (hsafe : isSafe a = true) (hm : t.act? steps a = some t') :
    t'.scheduler.world.provider.failing = none := by
  cases a with
  | request id | remove id =>
      cases hm
      exact hcomes
  | run number starts =>
      obtain ⟨x, -, hm⟩ := Option.bind_eq_some_iff.1 hm
      obtain ⟨holder, -, hm⟩ := Option.bind_eq_some_iff.1 hm
      obtain ⟨⟨s', x', started⟩, hmove, hm⟩ := Option.bind_eq_some_iff.1 hm
      cases hm
      have hprovider := (operates_of_move? hcomes hmove).1
      exact (congrArg Provider.failing hprovider).trans hcomes
  | provide provider =>
      cases hm
      exact Option.isNone_iff_eq_none.1 hsafe

theorem Reached.acts (h : t.Reached)
    (hcomes : t.scheduler.world.provider.failing = none)
    (hsafe : ∀ a ∈ as, isSafe a = true) (hm : t.acts? steps as = some t') :
    t'.Reached := by
  induction as generalizing t with
  | nil =>
      cases hm
      exact h
  | cons a as ih =>
      obtain ⟨u, hu, hm⟩ := Option.bind_eq_some_iff.1 hm
      obtain ⟨ha, has⟩ := List.forall_mem_cons.1 hsafe
      exact ih (h.act hcomes hu) (act?_failing hcomes ha hu) has hm

end Threads

-- ================================================================== alone

/-- A removal that nobody gets between does what the removal of a source
does. -/
theorem move_removal (s : Scheduler) (id : String) :
    (fun p : Scheduler × RemovalStage => p.2.move p.1 id)^[7] (s, .results)
      = (s.remove id, .removed) := by
  have hforgotten : s.remove id
      = { (s.remove id) with world := { (s.remove id).world with
          flights := s.world.flights.forget id } } := rfl
  rw [hforgotten]
  -- what is left after the first two operations, but for the flights
  generalize hu : s.remove id = u
  have hbegun : (fun p : Scheduler × RemovalStage => p.2.move p.1 id)^[2] (s, .results)
      = ({ u with world := { u.world with flights := s.world.flights } },
        .entering) := hu ▸ rfl
  rw [Function.iterate_add_apply _ 5 2, hbegun]
  generalize s.world.flights = f
  simp only [Function.iterate_succ_apply, Function.iterate_zero_apply]
  unfold Flights.forget
  cases hn : f.number? id with
  | none =>
      have hidle : f.isRunning id = false := by
        unfold Flights.isRunning
        rw [hn]
        rfl
      have hdrop := Flights.drop_of_none hn
      unfold Flights.drop at hdrop
      simp [RemovalStage.move, hn, hidle, hdrop]
  | some n =>
      have hrunning := Flights.isRunning_of_number? hn
      cases hheld : (f.get n).running with
      | false => simp [RemovalStage.move, hn, hrunning, hheld, Flights.drop]
      | true => simp [RemovalStage.move, hn, hrunning, hheld]

-- ================================================================= parsing

/-- A thread that parses a source has taken the flight of that source. -/
theorem Thread.Fits.held_of_parses {f : Flights} {x : Thread} {id : String}
    (hx : x.Fits f) (h : x.parses id = true) :
    ∃ n, x.task.held? = some n ∧ f.number? id = some n := by
  obtain ⟨hid, hstage⟩ := Bool.and_eq_true_iff.1 h
  obtain ⟨n, hheld⟩ : ∃ n, x.task.held? = some n := by
    split at hstage
    · rename_i n htask
      exact ⟨n, by rw [htask]; rfl⟩
    · rename_i n htask
      exact ⟨n, by rw [htask]; rfl⟩
    · rename_i n _ htask
      exact ⟨n, by rw [htask]; rfl⟩
    · cases hstage
  exact ⟨n, hheld, eq_of_beq hid ▸ (hx.held n hheld).1⟩

/-- What holds at one place of a list at most holds of one entry at most. -/
theorem countP_le_one {α : Type} {p : α → Bool} {l : List α}
    (h : ∀ (i j : Nat) (a b : α), l[i]? = some a → l[j]? = some b →
      p a = true → p b = true → i = j) : l.countP p ≤ 1 := by
  induction l with
  | nil => exact Nat.zero_le _
  | cons a l ih =>
      rw [List.countP_cons]
      cases ha : p a with
      | false =>
          rw [if_neg nofun]
          refine ih fun i j x y hx hy hpx hpy => ?_
          exact Nat.succ.inj (h (i + 1) (j + 1) x y hx hy hpx hpy)
      | true =>
          have hnone : l.countP p = 0 := by
            refine List.countP_eq_zero.2 fun b hb hpb => ?_
            obtain ⟨j, hj⟩ := List.mem_iff_getElem?.1 hb
            cases h 0 (j + 1) a b rfl hj ha hpb
          exact Nat.le_of_eq (by rw [hnone, if_pos rfl])

/-- Where the threads are apart, one at most is in the midst of a pass over a
source. -/
theorem Threads.Apart.countP_parses {t : Threads} (h : t.Apart) (id : String) :
    t.list.countP (·.parses id) ≤ 1 := by
  refine countP_le_one fun i j x y hx hy hparses hparses' => ?_
  obtain ⟨n, hheld, hn⟩ :=
    (h.fits x (List.mem_of_getElem? hx)).held_of_parses hparses
  obtain ⟨m, hheld', hm⟩ :=
    (h.fits y (List.mem_of_getElem? hy)).held_of_parses hparses'
  obtain rfl : n = m := Option.some.inj (hn.symm.trans hm)
  exact h.alone i j x y n hx hy hheld hheld'

/-- Whatever requests, workers and removals do, in whatever order, one worker at
most is in the midst of a pass over a source. -/
theorem parses_alone {t : Threads} (h : t.Reached) (id : String) :
    t.list.countP (·.parses id) ≤ 1 := by
  have happart := h.apart
  exact happart.countP_parses id

/-- A worker let go of its flight, found a mark and is to take the flight back;
meanwhile the source was removed and requested again, and another worker is in
the midst of a pass. -/
theorem parses_alone_removed :
    ∃ t : Threads, t.Reached
      ∧ t.list[1]? = some ⟨"a", .work 0 .reclaiming⟩
      ∧ t.list[5]? = some ⟨"a", .work 1 .calling⟩
      ∧ t.list.countP (·.parses "a") ≤ 1 := by
  let first : Threads := .start {} { texts := [("a", "")] } 1
  let run (number times : Nat) : List Act := .replicate times (.run number true)
  let as : List Act := [.request "a"] ++ run 0 4 ++ run 1 4 ++ [.request "a"]
    ++ run 2 2 ++ run 1 1 ++ run 2 2 ++ run 1 2 ++ [.remove "a"] ++ run 3 6
    ++ [.request "a"] ++ run 4 4 ++ run 5 2
  have hread : (first.acts? 40 as).any (fun t =>
      decide (t.list[1]? = some ⟨"a", .work 0 .reclaiming⟩)
        && decide (t.list[5]? = some ⟨"a", .work 1 .calling⟩)) = true := by
    decide +kernel
  obtain ⟨t, hacts, hsays⟩ := (Option.any_eq_true _ _).1 hread
  obtain ⟨hold, hnew⟩ := Bool.and_eq_true_iff.1 hsays
  have ht : t.Reached := (Threads.Reached.start ..).acts rfl (by decide) hacts
  exact ⟨t, ht, of_decide_eq_true hold, of_decide_eq_true hnew, parses_alone ht "a"⟩

end AblOutline.Scheduler
