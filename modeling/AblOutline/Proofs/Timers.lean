/-
Which waiting requests are made. The number of the last request for a source
grows by one with each request and by nothing else, as long as the source is not
removed (`Timers.latest_acts`). So a timer that ends makes its request exactly
where no later one came for the source meanwhile, and of timers of one source
that run together only the one that was started last can make one
(`newest_request_made`).

A removal forgets the number, and counting begins again at one: the timer of a
request from before the removal takes the number of one from after it for its
own. Then both requests are made (`superseded_request_made`).
-/
import AblOutline.Proofs.Traffic.Flights
import AblOutline.Scheduler.Timers

namespace AblOutline.Scheduler

-- ================================================================= numbers

namespace Waiting

variable (w : Waiting) (id id' : String)

/-- The number of the last request for a source, nought where there was none. -/
def latest : Nat := (w.last? id).getD 0

theorem latest_start :
    (w.start id).1.latest id' = w.latest id' + if id = id' then 1 else 0 := by
  unfold latest start last?
  rw [List.lookup_cons]
  by_cases h : id = id'
  · simp [h]
  · simp [h, beq_false_of_ne (Ne.symm h)]

theorem number_start : (w.start id).2 = (w.start id).1.latest id := by
  rw [latest_start, if_pos rfl]
  rfl

theorem latest_forget (h : id ≠ id') : (w.forget id).latest id' = w.latest id' := by
  unfold latest last? forget
  rw [lookup_filter_bne, if_neg (Ne.symm h)]

/-- A request is the last one of its source where its number is that of the last
one. -/
theorem isLast_iff {number : Nat} (h : 0 < number) :
    w.isLast id number = true ↔ w.latest id = number := by
  unfold isLast latest
  cases w.last? id with
  | none => simp; omega
  | some n => simp

end Waiting

namespace Timers

variable {t t' u v : Timers} {a : Act} {as bs : List Act} {id : String}
  {place : Nat} {x y : Timer}

/-- The number of the last request for a source. -/
def latest (t : Timers) (id : String) : Nat := t.scheduler.waiting.latest id

/-- What happens is a request for the source that is to wait. -/
def Act.isRequest (id : String) : Act → Bool
  | .debounce id' _ => id' == id
  | _ => false

theorem endTimer_waiting (s : Scheduler) (x : Timer) :
    (endTimer s x).1.waiting = s.waiting := by
  unfold endTimer
  split <;> rfl

/-- The timer that a request starts has the number of the last request. -/
theorem act?_debounce (h : t.act? (.debounce id true) = some t') :
    t'.list = t.list ++ [⟨id, t'.latest id, .running⟩] := by
  have hlist : t'.list
      = t.list ++ [⟨id, (t.scheduler.waiting.start id).2, .running⟩] := by
    cases h
    rfl
  have hlatest : t'.latest id = (t.scheduler.waiting.start id).1.latest id := by
    cases h
    rfl
  rw [hlist, hlatest, Waiting.number_start]

/-- What the end of a timer comes to: it was running, and its request is made or
dropped. -/
theorem act?_expire (h : t.act? (.expire place) = some t') :
    ∃ x, t.list[place]? = some x ∧ x.stage = .running
      ∧ t'.scheduler = (endTimer t.scheduler x).1
      ∧ t'.list = t.list.set place { x with stage := (endTimer t.scheduler x).2 } := by
  obtain ⟨x, hx, h⟩ := Option.bind_eq_some_iff.1 h
  by_cases hruns : x.stage = .running
  · rw [if_pos hruns] at h
    cases h
    exact ⟨x, hx, hruns, rfl, rfl⟩
  · rw [if_neg hruns] at h
    cases h

/-- A request for a source counts one up, and nothing else does, but for
removals. -/
theorem latest_act (h : t.act? a = some t') (hkept : a ≠ .remove id) :
    t'.latest id = t.latest id + if a.isRequest id then 1 else 0 := by
  cases a with
  | debounce id' starts =>
      cases h
      apply (Waiting.latest_start ..).trans
      simp [Act.isRequest, latest]
  | remove id' =>
      cases h
      have hother : id' ≠ id := fun he => hkept (he ▸ rfl)
      exact Waiting.latest_forget _ _ _ hother
  | expire place =>
      obtain ⟨x, -, -, hscheduler, -⟩ := act?_expire h
      unfold latest
      rw [hscheduler, endTimer_waiting]
      rfl
  | proceed world =>
      cases h
      rfl

theorem acts?_append (t : Timers) (as bs : List Act) :
    t.acts? (as ++ bs) = (t.acts? as).bind (·.acts? bs) :=
  List.foldlM_append

theorem latest_acts (h : t.acts? as = some t') (hkept : Act.remove id ∉ as) :
    t'.latest id = t.latest id + as.countP (·.isRequest id) := by
  induction as generalizing t with
  | nil =>
      cases h
      rfl
  | cons a as ih =>
      obtain ⟨u, hu, h⟩ := Option.bind_eq_some_iff.1 h
      simp only [List.mem_cons, not_or] at hkept
      rw [ih h hkept.2, latest_act hu (Ne.symm hkept.1), List.countP_cons]
      omega

-- ================================================================== timers

/-- A timer stays at its place, and comes to an end once at most: its request is
then made where its number is the last. -/
theorem act?_timer (h : t.act? a = some t') (hx : t.list[place]? = some x) :
    ∃ stage, t'.list[place]? = some { x with stage }
      ∧ (stage = x.stage
        ∨ x.stage = .running ∧ stage = (endTimer t.scheduler x).2) := by
  have hlt : place < t.list.length := (List.getElem?_eq_some_iff.1 hx).1
  cases a with
  | debounce id starts =>
      cases h
      refine ⟨x.stage, ?_, Or.inl rfl⟩
      dsimp only
      split
      · rw [List.getElem?_append_left hlt, hx]
      · exact hx
  | remove id =>
      cases h
      exact ⟨x.stage, hx, Or.inl rfl⟩
  | expire place' =>
      obtain ⟨y, hy, hruns, -, hlist⟩ := act?_expire h
      rw [hlist]
      by_cases hplace : place' = place
      · subst hplace
        obtain rfl : x = y := Option.some.inj (hx.symm.trans hy)
        exact ⟨_, List.getElem?_set_self hlt, Or.inr ⟨hruns, rfl⟩⟩
      · rw [List.getElem?_set_ne hplace]
        exact ⟨x.stage, hx, Or.inl rfl⟩
  | proceed world =>
      cases h
      exact ⟨x.stage, hx, Or.inl rfl⟩

/-- A timer keeps its source and its number. -/
theorem acts?_timer (h : t.acts? as = some t') (hx : t.list[place]? = some x) :
    ∃ stage, t'.list[place]? = some { x with stage } := by
  induction as generalizing t x with
  | nil =>
      cases h
      exact ⟨x.stage, hx⟩
  | cons a as ih =>
      obtain ⟨u, hu, h⟩ := Option.bind_eq_some_iff.1 h
      obtain ⟨stage, hstage, -⟩ := act?_timer hu hx
      obtain ⟨last, hlast⟩ := ih h hstage
      exact ⟨last, hlast⟩

/-- A timer whose number is not the last one any more makes no request, unless
its source is removed. -/
theorem not_requested_of_lt (h : t.acts? as = some t')
    (hkept : Act.remove x.id ∉ as) (hx : t.list[place]? = some x)
    (hstage : x.stage ≠ .requested) (hlt : x.number < t.latest x.id)
    (hy : t'.list[place]? = some y) : y.stage ≠ .requested := by
  induction as generalizing t x with
  | nil =>
      cases h
      obtain rfl : x = y := Option.some.inj (hx.symm.trans hy)
      exact hstage
  | cons a as ih =>
      obtain ⟨u, hu, h⟩ := Option.bind_eq_some_iff.1 h
      simp only [List.mem_cons, not_or] at hkept
      obtain ⟨stage, hplace, hends⟩ := act?_timer hu hx
      have hgrown := latest_act hu (Ne.symm hkept.1)
      refine ih (x := { x with stage }) h hkept.2 hplace ?_ (by dsimp only; omega)
      rcases hends with rfl | ⟨-, rfl⟩
      · exact hstage
      · intro hrequested
        unfold endTimer at hrequested
        split at hrequested
        · rename_i hlast
          unfold latest Waiting.latest at hlt
          unfold Waiting.isLast at hlast
          rw [eq_of_beq hlast] at hlt
          exact Nat.lt_irrefl _ hlt
        · cases hrequested

/-- A timer was there before, or it was started just now and has the number of
the last request. -/
theorem act?_started (h : t.act? a = some t') (hy : t'.list[place]? = some y) :
    (∃ x, t.list[place]? = some x ∧ x.id = y.id ∧ x.number = y.number)
      ∨ place = t.list.length ∧ a = .debounce y.id true
        ∧ y.number = t'.latest y.id := by
  rcases Nat.lt_or_ge place t.list.length with hlt | hge
  · obtain ⟨stage, hstage, -⟩ := act?_timer h (List.getElem?_eq_getElem hlt)
    obtain rfl := Option.some.inj (hstage.symm.trans hy)
    exact Or.inl ⟨_, List.getElem?_eq_getElem hlt, rfl, rfl⟩
  · have hthere := (List.getElem?_eq_some_iff.1 hy).1
    cases a with
    | debounce id starts =>
        cases starts with
        | false =>
            cases h
            exact absurd hthere (Nat.not_lt.2 hge)
        | true =>
            rw [act?_debounce h, List.getElem?_append_right hge] at hy
            have hplace := (List.getElem?_eq_some_iff.1 hy).1
            simp only [List.length_singleton, Nat.lt_one_iff] at hplace
            rw [hplace] at hy
            cases hy
            exact Or.inr ⟨by omega, rfl, rfl⟩
    | remove id =>
        cases h
        exact absurd hthere (Nat.not_lt.2 hge)
    | expire place' =>
        obtain ⟨x, -, -, -, hlist⟩ := act?_expire h
        rw [hlist, List.length_set] at hthere
        exact absurd hthere (Nat.not_lt.2 hge)
    | proceed world =>
        cases h
        exact absurd hthere (Nat.not_lt.2 hge)

/-- The timers of a source from some place on have numbers that grow, up to that
of the last request. -/
structure Ordered (id : String) (first : Nat) (t : Timers) : Prop where
  le : ∀ i x, first ≤ i → t.list[i]? = some x → x.id = id → x.number ≤ t.latest id
  lt : ∀ i j x y, first ≤ i → i < j → t.list[i]? = some x → t.list[j]? = some y →
    x.id = id → y.id = id → x.number < y.number

theorem Ordered.act {first : Nat} (ht : t.Ordered id first)
    (h : t.act? a = some t') (hkept : a ≠ .remove id) : t'.Ordered id first := by
  have hgrown := latest_act h hkept
  refine ⟨fun i y hi hy hid => ?_, fun i j y z hi hij hy hz hyid hzid => ?_⟩
  · rcases act?_started h hy with ⟨x, hx, hxid, hnumber⟩ | ⟨-, -, hnumber⟩
    · have := ht.le i x hi hx (hxid.trans hid)
      omega
    · exact Nat.le_of_eq (hid ▸ hnumber)
  · rcases act?_started h hy with ⟨x, hx, hxid, hx'⟩ | ⟨hplace, -, -⟩
    · rcases act?_started h hz with ⟨w, hw, hwid, hw'⟩ | ⟨-, rfl, hnumber⟩
      · have := ht.lt i j x w hi hij hx hw (hxid.trans hyid) (hwid.trans hzid)
        omega
      · -- the one that was started just now comes after all others
        have hle := ht.le i x hi hx (hxid.trans hyid)
        rw [hzid] at hnumber
        simp only [Act.isRequest, hzid, beq_self_eq_true, if_true] at hgrown
        omega
    · -- nothing stands behind the one that was started just now
      rcases act?_started h hz with ⟨w, hw, -, -⟩ | ⟨hplace', -, -⟩
      · have := (List.getElem?_eq_some_iff.1 hw).1
        omega
      · omega

theorem Ordered.acts {first : Nat} (ht : t.Ordered id first)
    (h : t.acts? as = some t') (hkept : Act.remove id ∉ as) :
    t'.Ordered id first := by
  induction as generalizing t with
  | nil =>
      cases h
      exact ht
  | cons a as ih =>
      obtain ⟨u, hu, h⟩ := Option.bind_eq_some_iff.1 h
      simp only [List.mem_cons, not_or] at hkept
      exact ih (ht.act hu (Ne.symm hkept.1)) h hkept.2

/-- No timer stands beyond the last. -/
theorem ordered_length (t : Timers) (id : String) : t.Ordered id t.list.length := by
  have hnone : ∀ i x, t.list.length ≤ i → t.list[i]? ≠ some x := by
    intro i x hi hx
    exact absurd (List.getElem?_eq_some_iff.1 hx).1 (Nat.not_lt.2 hi)
  exact ⟨fun i x hi hx => absurd hx (hnone i x hi),
    fun i j x y hi hij hx => absurd hx (hnone i x hi)⟩

end Timers

-- ================================================================== newest

open Timers in
/-- As long as a source is not removed: the request of a timer is made when the
timer ends, if and only if no later request for the source was to wait by then;
so of timers of the source that run together, none but the one that was started
last makes its request. -/
theorem newest_request_made (t : Timers) (id : String) :
    (∀ between t', Act.remove id ∉ between →
      t.acts? (.debounce id true :: (between ++ [.expire t.list.length])) = some t' →
      ∃ x, t'.list[t.list.length]? = some x ∧ x.id = id
        ∧ (x.stage = .requested ↔ ∀ starts, Act.debounce id starts ∉ between))
    ∧ ∀ as bs u v, Act.remove id ∉ as → Act.remove id ∉ bs →
      t.acts? as = some u → u.acts? bs = some v →
      ∀ (i j : Nat) (x y z : Timer), t.list.length ≤ i → i < j →
        u.list[i]? = some x → u.list[j]? = some y → x.id = id → y.id = id →
        x.stage = .running → v.list[i]? = some z → z.stage ≠ .requested := by
  refine ⟨fun between t' hkept h => ?_,
    fun as bs u v hkept hkept' hu hv i j x y z hi hij hx hy hxid hyid hruns hz => ?_⟩
  · change (t.act? (.debounce id true)).bind (·.acts? _) = some t' at h
    obtain ⟨t₁, hstart, h⟩ := Option.bind_eq_some_iff.1 h
    rw [acts?_append] at h
    obtain ⟨t₂, hbetween, h⟩ := Option.bind_eq_some_iff.1 h
    obtain ⟨t₃, hend, h⟩ := Option.bind_eq_some_iff.1 h
    cases h
    have hstarted : t₁.list[t.list.length]? = some ⟨id, t₁.latest id, .running⟩ := by
      simp [act?_debounce hstart]
    obtain ⟨stage, hplace⟩ := acts?_timer hbetween hstarted
    have hgrown := latest_acts hbetween hkept
    obtain ⟨x, hx, hruns, -, hlist⟩ := act?_expire hend
    obtain rfl := Option.some.inj (hplace.symm.trans hx)
    have hpositive : 0 < t₁.latest id := by
      rw [latest_act hstart nofun]
      simp [Act.isRequest]
    refine ⟨_, by rw [hlist]; exact
      List.getElem?_set_self (List.getElem?_eq_some_iff.1 hx).1, rfl, ?_⟩
    have hmade : (endTimer t₂.scheduler ⟨id, t₁.latest id, stage⟩).2 = .requested
        ↔ t₂.latest id = t₁.latest id := by
      apply Iff.trans _ (Waiting.isLast_iff t₂.scheduler.waiting id hpositive)
      unfold endTimer
      split <;> simp [*]
    rw [hmade, hgrown, Nat.add_eq_left, List.countP_eq_zero]
    constructor
    · intro hnone starts hmem
      exact hnone _ hmem (beq_self_eq_true id)
    · intro hnone a ha hrequest
      cases a with
      | debounce id' starts =>
          obtain rfl : id' = id := eq_of_beq hrequest
          exact hnone starts ha
      | _ => cases hrequest
  · have hordered := (ordered_length t id).acts hu hkept
    subst hxid
    refine not_requested_of_lt hv hkept' hx (by rw [hruns]; nofun) ?_ hz
    have hlt := hordered.lt i j x y hi hij hx hy rfl hyid
    have hle := hordered.le j y (by omega) hy hyid
    omega

open Timers in
/-- A source is requested twice, then the first of the two timers ends; meanwhile
another source is requested and removed. The second request is made, the first is
not. -/
theorem newest_request_made_twice :
    ∃ (t u v : Timers) (x y : Timer),
      (start {} { texts := [("a", "")] } 1).acts? [.debounce "a" true] = some t
      ∧ t.acts? [.debounce "a" true, .expire 0, .debounce "b" true, .remove "b",
        .expire 1] = some u
      ∧ u.list[1]? = some x ∧ x.id = "a" ∧ x.stage = .requested
      ∧ t.acts? [.debounce "a" true, .expire 0] = some v
      ∧ v.list[0]? = some y ∧ y.stage ≠ .requested := by
  let first : Timers := start {} { texts := [("a", "")] } 1
  have hone : (first.acts? [.debounce "a" true]).isSome = true := rfl
  obtain ⟨t, ht⟩ := Option.isSome_iff_exists.1 hone
  have hall : (t.acts? [.debounce "a" true, .expire 0, .debounce "b" true,
      .remove "b", .expire 1]).isSome = true := by
    cases ht
    decide +kernel
  obtain ⟨u, hu⟩ := Option.isSome_iff_exists.1 hall
  have htwo : (first.acts? [.debounce "a" true, .debounce "a" true]).any (fun t =>
      decide (t.list = [⟨"a", 1, .running⟩, ⟨"a", 2, .running⟩])) = true := by
    decide +kernel
  obtain ⟨w, hw, hlist⟩ := (Option.any_eq_true _ _).1 htwo
  have hlist := of_decide_eq_true hlist
  have hend : (w.acts? [.expire 0]).any (fun t => t.list[0]?.isSome) = true := by
    cases hw
    decide +kernel
  obtain ⟨v, hv, hsome⟩ := (Option.any_eq_true _ _).1 hend
  obtain ⟨y, hy⟩ := Option.isSome_iff_exists.1 hsome
  have hlength : t.list.length = 1 := by
    cases ht
    rfl
  obtain ⟨x, hx, hid, hmade⟩ := (newest_request_made t "a").1
    [.expire 0, .debounce "b" true, .remove "b"] u (by simp) (by rw [hlength]; exact hu)
  rw [hlength] at hx
  refine ⟨t, u, v, x, y, ht, hu, hx, hid, hmade.2 (by simp), ?_, hy, ?_⟩
  · cases ht
    cases hw
    exact hv
  · exact (newest_request_made first "a").2
      [.debounce "a" true, .debounce "a" true] [.expire 0] w v (by simp) (by simp) hw hv
      0 1 ⟨"a", 1, .running⟩ ⟨"a", 2, .running⟩ y (Nat.le_refl 0) Nat.one_pos
      (by rw [hlist]; rfl) (by rw [hlist]; rfl) rfl rfl rfl hy

open Timers in
/-- A source is requested, removed and requested again while the first timer runs.
Both requests have the number one, and both are made. -/
theorem superseded_request_made :
    ∃ t : Timers, (start {} { texts := [("a", "")] } 1).acts? [.debounce "a" true,
        .remove "a", .debounce "a" true, .expire 0, .expire 1] = some t
      ∧ t.list = [⟨"a", 1, .requested⟩, ⟨"a", 1, .requested⟩] := by
  have hread : ((start {} { texts := [("a", "")] } 1).acts? [.debounce "a" true,
      .remove "a", .debounce "a" true, .expire 0, .expire 1]).any (fun t =>
        decide (t.list = [⟨"a", 1, .requested⟩, ⟨"a", 1, .requested⟩])) = true := by
    decide +kernel
  obtain ⟨t, ht, hlist⟩ := (Option.any_eq_true _ _).1 hread
  exact ⟨t, ht, of_decide_eq_true hlist⟩

end AblOutline.Scheduler
