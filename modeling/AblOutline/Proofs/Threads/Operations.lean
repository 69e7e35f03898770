/-
What an operation of a thread does to flights. A thread that has taken a flight
keeps it until it lets go of it or hands it to the worker that it starts; it took
it when nobody had it, and the flight was that of its source. `Operates` lists
all that can happen. What the thread holds and has found is so afterwards
(`Operates.fits_self`), and for others nothing changes that they rely on
(`Operates.fits_other`): only a thread that has the lock takes a flight or drops
one, and a flight that is held is not dropped.
-/
import AblOutline.Proofs.Traffic.Sound
import AblOutline.Scheduler.Threads

namespace AblOutline.Scheduler

-- ================================================================= flights

namespace Flights

variable {f : Flights} {id : String} {m n : Nat} {g : Flight → Flight}

theorem get_change (f : Flights) (n m : Nat) (g : Flight → Flight) :
    (f.change n g).get m
      = if n = m ∧ m < f.made.size then g (f.get m) else f.get m := by
  unfold change get
  rw [Array.getElem?_modify]
  by_cases hm : n = m
  · rw [if_pos hm]
    by_cases hlt : m < f.made.size
    · rw [if_pos ⟨hm, hlt⟩, Array.getElem?_eq_getElem hlt]
      rfl
    · rw [if_neg fun h => hlt h.2, Array.getElem?_eq_none (Nat.le_of_not_lt hlt)]
      rfl
  · rw [if_neg hm, if_neg fun h => hm h.1]

/-- What does not concern who holds a flight changes nothing of that. -/
theorem running_change (hg : ∀ x, (g x).running = x.running) (n m : Nat) :
    ((f.change n g).get m).running = (f.get m).running := by
  rw [get_change]
  split
  · exact hg _
  · rfl

theorem running_release (n m : Nat) :
    ((f.release n).get m).running = if n = m then false else (f.get m).running := by
  unfold release
  rw [get_change]
  by_cases hm : n = m
  · rw [if_pos hm]
    split
    · rfl
    · rename_i hlt
      have hout := Nat.le_of_not_lt fun h => hlt ⟨hm, h⟩
      unfold get
      rw [Array.getElem?_eq_none hout]
      rfl
  · rw [if_neg hm, if_neg fun h => hm h.1]

/-- A flight that was taken, and no other, is held from then on. -/
theorem running_take (hn : n < f.made.size) (m : Nat) :
    ((f.change n fun x => { x with running := true }).get m).running
      = if n = m then true else (f.get m).running := by
  rw [get_change]
  by_cases hm : n = m
  · rw [if_pos hm, if_pos ⟨hm, hm ▸ hn⟩]
  · rw [if_neg hm, if_neg fun h => hm h.1]

/-- A new flight is not held. -/
theorem running_enter (f : Flights) (id : String) (m : Nat) :
    ((f.enter id).1.get m).running = (f.get m).running := by
  unfold enter
  cases f.number? id with
  | some n => rfl
  | none =>
      unfold get
      dsimp only
      rw [Array.getElem?_push]
      split
      · rename_i hm
        rw [hm, Array.getElem?_eq_none (Nat.le_refl _)]
        rfl
      · rfl

theorem number?_drop (f : Flights) (id id' : String) :
    (f.drop id).number? id' = if id' = id then none else f.number? id' :=
  lookup_filter_bne f.table id id'

theorem WellFormed.drop (hf : f.WellFormed) (id : String) :
    (f.drop id).WellFormed := by
  have hkept : ∀ id' n, (f.drop id).number? id' = some n → f.number? id' = some n := by
    intro id' n hn
    rw [number?_drop] at hn
    split at hn
    · cases hn
    · exact hn
  exact ⟨fun id' n hn => hf.made id' n (hkept id' n hn),
    fun x y n hx hy => hf.apart x y n (hkept x n hx) (hkept y n hy)⟩

/-- A flight that can be taken is held by nobody. -/
theorem free_of_claim? {f' : Flights} (h : f.claim? n = some f') :
    f' = f.change n (fun x => { x with running := true })
      ∧ (f.get n).running = false := by
  refine ⟨claim?_eq_some h, ?_⟩
  unfold claim? at h
  split at h
  · cases h
  · rename_i hfree
    exact Bool.eq_false_iff.2 hfree

/-- A source without a flight has none to be dropped. -/
theorem drop_of_none (h : f.number? id = none) : f.drop id = f := by
  have hkept : f.table.filter (·.1 != id) = f.table := by
    refine List.filter_eq_self.2 fun entry hentry => ?_
    have hne := List.lookup_eq_none_iff.1 h entry hentry
    exact bne_iff_ne.2 fun he => bne_iff_ne.1 hne he.symm
  unfold drop
  rw [hkept]

end Flights

-- ================================================================= threads

namespace Task

/-- The flight that a thread has taken. -/
def held? : Task → Option Nat
  | .call (.leaving n claimed) => if claimed then some n else none
  | .call (.spawning n) => some n
  | .work n stage => if stage.holds then some n else none
  | .retaken n again => if again then some n else none
  | _ => none

/-- The flight that a thread that has the lock found for its source. -/
def found? : Task → Option Nat
  | .call (.claiming n) | .retaking n | .removal (.testing n)
  | .removal (.dropping n) => some n
  | _ => none

/-- The flight that a thread that has the lock found to be held by nobody. -/
def idle? : Task → Option Nat
  | .removal (.dropping n) => some n
  | _ => none

/-- A thread has the lock. -/
def isInside : Task → Bool
  | .call (.claiming _) | .call (.marking _) | .call (.leaving _ _)
  | .retaking _ | .retaken _ _ | .removal (.testing _)
  | .removal (.dropping _) | .removal .leaving => true
  | _ => false

/-- What a thread found is true as long as it has the lock. -/
theorem isInside_of_found? {task : Task} {n : Nat}
    (h : task.found? = some n) : task.isInside = true := by
  unfold found? at h
  split at h <;> first | rfl | cases h

theorem isInside_of_idle? {task : Task} {n : Nat}
    (h : task.idle? = some n) : task.isInside = true := by
  unfold idle? at h
  split at h
  · rfl
  · cases h

end Task

namespace Thread

/-- A thread has the lock after its next operation. -/
def staysInside (x : Thread) : Bool :=
  x.locks || x.task.isInside && !x.unlocks

/-- A thread that gives the lock back has it. -/
theorem isInside_of_unlocks {x : Thread} (h : x.unlocks = true) :
    x.task.isInside = true := by
  unfold unlocks at h
  split at h
  · rename_i htask
    rw [htask]
    rfl
  · rename_i htask
    rw [htask]
    rfl
  · rename_i htask
    rw [htask]
    rfl
  · cases h

end Thread

/-- What a thread holds and has found is so. -/
structure Thread.Fits (f : Flights) (x : Thread) : Prop where
  held : ∀ n, x.task.held? = some n →
    f.number? x.id = some n ∧ (f.get n).running = true
  found : ∀ n, x.task.found? = some n → f.number? x.id = some n
  idle : ∀ n, x.task.idle? = some n → (f.get n).running = false

-- ============================================================== operations

/-- What an operation of a thread does to the flights, what comes of the thread,
and the threads that it starts. -/
inductive Operates (f : Flights) (x : Thread) :
    Flights → Thread → List Thread → Prop where
  /-- Nobody takes, lets go of, makes or drops a flight. -/
  | stay {f' : Flights} {x' : Thread}
      (hnumber : ∀ id, f'.number? id = f.number? id)
      (hsize : f'.made.size = f.made.size)
      (hrunning : ∀ n, (f'.get n).running = (f.get n).running)
      (hfits : x.Fits f → x'.Fits f)
      (hheld : ∀ n, x'.task.held? = some n → x.task.held? = some n) :
      Operates f x f' x' []
  /-- The thread looks up the flight of its source. -/
  | enter (hlocks : x.locks = true) :
      Operates f x (f.enter x.id).1
        { x with task := .call (.claiming (f.enter x.id).2) } []
  /-- The thread takes the flight that it found. -/
  | take {n : Nat} {task : Task} (hfound : x.task.found? = some n)
      (hfree : (f.get n).running = false) (hheld : task.held? = some n)
      (hnone : task.found? = none ∧ task.idle? = none) :
      Operates f x (f.change n fun a => { a with running := true })
        { x with task } []
  /-- The thread lets go of its flight. -/
  | release {n : Nat} {task : Task} (hheld : x.task.held? = some n)
      (hout : x.task.isInside = false)
      (hnone : task.held? = none ∧ task.found? = none ∧ task.idle? = none) :
      Operates f x (f.release n) { x with task } []
  /-- The thread hands its flight to a worker that it starts. -/
  | hand {n : Nat} {outcome : Requested} (hheld : x.task.held? = some n) :
      Operates f x f { x with task := .call (.returned outcome) }
        [⟨x.id, .work n .clearing⟩]
  /-- The thread drops the flight that it found to be held by nobody. -/
  | drop {n : Nat} (htask : x.task = .removal (.dropping n)) :
      Operates f x (f.drop x.id) { x with task := .removal .leaving } []

namespace Operates

variable {f f' : Flights} {x x' y z : Thread} {started : List Thread} {n : Nat}

theorem wellFormed (h : Operates f x f' x' started) (hf : f.WellFormed) :
    f'.WellFormed := by
  cases h with
  | stay hnumber hsize =>
      refine ⟨fun id n hn => ?_, fun a b n ha hb => ?_⟩
      · rw [hsize]
        exact hf.made id n (hnumber id ▸ hn)
      · exact hf.apart a b n (hnumber a ▸ ha) (hnumber b ▸ hb)
  | enter => exact hf.enter _
  | take => exact hf.change _ _
  | release => exact hf.change _ _
  | hand => exact hf
  | drop => exact hf.drop _

/-- The thread fits the flights after its operation. -/
theorem fits_self (h : Operates f x f' x' started) (hf : f.WellFormed)
    (hx : x.Fits f) : x'.Fits f' := by
  cases h with
  | stay hnumber hsize hrunning hfits hheld =>
      have hx' := hfits hx
      exact ⟨fun n hn => by rw [hnumber, hrunning]; exact hx'.held n hn,
        fun n hn => by rw [hnumber]; exact hx'.found n hn,
        fun n hn => by rw [hrunning]; exact hx'.idle n hn⟩
  | enter =>
      refine ⟨nofun, fun n hn => ?_, nofun⟩
      cases hn
      exact Flights.number?_enter f x.id
  | @take n task hfound hfree hheld hnone =>
      have hn := hx.found n hfound
      refine ⟨fun m hm => ?_, fun m hm => ?_, fun m hm => ?_⟩
      · obtain rfl : n = m := Option.some.inj (hheld.symm.trans hm)
        rw [Flights.running_take (hf.made _ _ hn), if_pos rfl]
        exact ⟨hn, rfl⟩
      · cases hnone.1.symm.trans hm
      · cases hnone.2.symm.trans hm
  | release hheld hout hnone =>
      refine ⟨fun m hm => ?_, fun m hm => ?_, fun m hm => ?_⟩
      · cases hnone.1.symm.trans hm
      · cases hnone.2.1.symm.trans hm
      · cases hnone.2.2.symm.trans hm
  | hand => exact ⟨nofun, nofun, nofun⟩
  | drop => exact ⟨nofun, nofun, nofun⟩

/-- Another thread that does not hold the same and is outside the lock where
this one is inside fits the flights as before. -/
theorem fits_other (h : Operates f x f' x' started) (hf : f.WellFormed)
    (hx : x.Fits f) (hy : y.Fits f)
    (halone : ∀ n, x.task.held? = some n → y.task.held? ≠ some n)
    (hlock : x.task.isInside = true → y.task.isInside = false) :
    y.Fits f' := by
  cases h with
  | stay hnumber hsize hrunning hfits hheld =>
      exact ⟨fun n hn => by rw [hnumber, hrunning]; exact hy.held n hn,
        fun n hn => by rw [hnumber]; exact hy.found n hn,
        fun n hn => by rw [hrunning]; exact hy.idle n hn⟩
  | enter hlocks =>
      refine ⟨fun n hn => ?_, fun n hn => ?_, fun n hn => ?_⟩
      · rw [Flights.running_enter]
        exact ⟨Flights.number?_enter_of_some (hy.held n hn).1, (hy.held n hn).2⟩
      · exact Flights.number?_enter_of_some (hy.found n hn)
      · rw [Flights.running_enter]
        exact hy.idle n hn
  | @take n task hfound hfree hheld hnone =>
      have hn := hx.found n hfound
      have hout := hlock (Task.isInside_of_found? hfound)
      refine ⟨fun m hm => ⟨(hy.held m hm).1, ?_⟩, fun m hm => ?_, fun m hm => ?_⟩
      · rw [Flights.running_take (hf.made _ _ hn)]
        split
        · rfl
        · exact (hy.held m hm).2
      · rw [Task.isInside_of_found? hm] at hout
        cases hout
      · rw [Task.isInside_of_idle? hm] at hout
        cases hout
  | @release n task hheld hout hnone =>
      refine ⟨fun m hm => ⟨(hy.held m hm).1, ?_⟩, hy.found, fun m hm => ?_⟩
      · have hother : n ≠ m := fun hnm => halone n hheld (hnm ▸ hm)
        rw [Flights.running_release, if_neg hother]
        exact (hy.held m hm).2
      · rw [Flights.running_release]
        split
        · rfl
        · exact hy.idle m hm
  | hand => exact hy
  | @drop n htask =>
      have hn := hx.found n (by rw [htask]; rfl)
      have hfree := hx.idle n (by rw [htask]; rfl)
      have hout := hlock (by rw [htask]; rfl)
      refine ⟨fun m hm => ?_, fun m hm => ?_, fun m hm => ?_⟩
      · have hheld := hy.held m hm
        -- what is held runs, what is dropped does not
        have hid : y.id ≠ x.id := by
          intro hid
          have hm' : m = n := Option.some.inj
            ((hid ▸ hheld.1).symm.trans hn)
          rw [hm', hfree] at hheld
          cases hheld.2
        rw [Flights.number?_drop, if_neg hid]
        exact hheld
      · rw [Task.isInside_of_found? hm] at hout
        cases hout
      · rw [Task.isInside_of_idle? hm] at hout
        cases hout

/-- What the thread holds after its operation it held before, or nobody did. -/
theorem held_before (h : Operates f x f' x' started)
    (hn : x'.task.held? = some n) :
    x.task.held? = some n ∨ (f.get n).running = false := by
  cases h with
  | stay hnumber hsize hrunning hfits hheld => exact Or.inl (hheld n hn)
  | enter => cases hn
  | take hfound hfree hheld =>
      cases hheld.symm.trans hn
      exact Or.inr hfree
  | release hheld hout hnone => cases hnone.1.symm.trans hn
  | hand => cases hn
  | drop => cases hn

-- the thread that is started has the flight of this one, which has none then

theorem started_one (h : Operates f x f' x' started) (hz : z ∈ started) :
    started.length = 1 := by
  cases h with
  | hand => rfl
  | _ => cases hz

theorem held_started (h : Operates f x f' x' started) (hz : z ∈ started) :
    x'.task.held? = none ∧ x.task.held? = z.task.held? := by
  cases h with
  | hand hheld =>
      cases List.mem_singleton.1 hz
      exact ⟨rfl, hheld⟩
  | _ => cases hz

theorem outside_started (h : Operates f x f' x' started) (hz : z ∈ started) :
    z.task.isInside = false := by
  cases h with
  | hand =>
      cases List.mem_singleton.1 hz
      rfl
  | _ => cases hz

theorem fits_started (h : Operates f x f' x' started) (hx : x.Fits f)
    (hz : z ∈ started) : z.Fits f' := by
  cases h with
  | @hand n outcome hheld =>
      cases List.mem_singleton.1 hz
      refine ⟨fun m hm => ?_, nofun, nofun⟩
      cases hm
      exact hx.held n hheld
  | _ => cases hz

end Operates

-- ================================================================== steps

section Steps

variable {s s' : Scheduler} {x x' : Thread} {started : List Thread} {steps : Nat}
  {starts : Bool}

/-- All that an operation of a worker can do that needs no lock. -/
theorem operates_of_work {id : String} {n : Nat} {stage : Stage}
    (hcomes : s.world.provider.failing = none)
    (hm : Thread.move? steps starts s ⟨id, .work n stage⟩
      = some (s', x', started))
    (hfollow : stage ≠ .following) (hreclaim : stage ≠ .reclaiming) :
    s'.world.provider = s.world.provider
      ∧ Operates s.world.flights ⟨id, .work n stage⟩ s'.world.flights x' started
      ∧ x'.task.isInside = false := by
  have hwork : Thread.move? steps starts s ⟨id, .work n stage⟩
      = (World.move? steps s.world ⟨id, n, stage⟩).bind fun r =>
        some ({ s with world := r.1 },
          ⟨id, (r.2.map fun k => .work n k.stage).getD .ended⟩, []) := by
    cases stage <;> first | rfl | contradiction
  rw [hwork] at hm
  obtain ⟨⟨w, after⟩, hmove, h⟩ := Option.bind_eq_some_iff.1 hm
  obtain ⟨-, hprovider, stage', rfl, hadvances⟩ :=
    advances_of_move? hmove hfollow hcomes
  cases h
  clear hm hmove
  refine ⟨hprovider, ?_, rfl⟩
  have hstay : ∀ {f' : Flights} {stage' : Stage},
      (∀ id, f'.number? id = s.world.flights.number? id) →
      f'.made.size = s.world.flights.made.size →
      (∀ n, (f'.get n).running = (s.world.flights.get n).running) →
      (stage'.holds = true → stage.holds = true) →
      Operates s.world.flights ⟨id, .work n stage⟩ f' ⟨id, .work n stage'⟩ [] := by
    intro f' stage' hnumber hsize hrunning hholds
    have hheld : ∀ m, (Task.work n stage').held? = some m →
        (Task.work n stage).held? = some m := by
      intro m hm
      unfold Task.held? at hm ⊢
      dsimp only at hm ⊢
      split at hm
      · rename_i hs
        rw [if_pos (hholds hs)]
        exact hm
      · cases hm
    exact .stay hnumber hsize hrunning
      (fun hx => ⟨fun m hm => hx.held m (hheld m hm), nofun, nofun⟩) hheld
  change Operates _ _ w.flights _ _
  generalize w.flights = f' at hadvances
  cases hadvances with
  | clear h =>
      exact hstay (fun _ => rfl) Array.size_modify
        (Flights.running_change (g := fun a => { a with rerun := false })
          (fun _ => rfl) n) (fun _ => by cases h; rfl)
  | release h =>
      refine .release ?_ rfl ⟨rfl, rfl, rfl⟩
      cases h
      rfl
  | reclaim h => exact absurd h hreclaim
  | lose h => exact absurd h hreclaim
  | start h | call h | parse _ h | again h | done h =>
      exact hstay (fun _ => rfl) rfl (fun _ => rfl) (fun _ => by cases h; rfl)
  | find h | miss h => exact hstay (fun _ => rfl) rfl (fun _ => rfl) nofun

/-- All that an operation of a thread can do, where texts come. Who is inside the
lock after it takes it then, or was inside and does not give it back. -/
theorem operates_of_move? (hcomes : s.world.provider.failing = none)
    (h : x.move? steps starts s = some (s', x', started)) :
    s'.world.provider = s.world.provider
      ∧ Operates s.world.flights x s'.world.flights x' started
      ∧ (x'.task.isInside = true → x.staysInside = true) := by
  obtain ⟨id, task⟩ := x
  have hstay : ∀ {task' : Task},
      ((⟨id, task⟩ : Thread).Fits s.world.flights →
        (⟨id, task'⟩ : Thread).Fits s.world.flights) →
      (∀ n, task'.held? = some n → task.held? = some n) →
      Operates s.world.flights ⟨id, task⟩ s.world.flights ⟨id, task'⟩ [] :=
    fun hfits hheld => .stay (fun _ => rfl) rfl (fun _ => rfl) hfits hheld
  have hnothing : ∀ {x' : Thread}, x'.task.held? = none →
      x'.task.found? = none → x'.task.idle? = none →
      Operates s.world.flights ⟨id, task⟩ s.world.flights x' [] := by
    intro x' hheld hfound hidle
    refine .stay (fun _ => rfl) rfl (fun _ => rfl) (fun _ => ⟨?_, ?_, ?_⟩) ?_
    · exact fun n hn => by cases hheld.symm.trans hn
    · exact fun n hn => by cases hfound.symm.trans hn
    · exact fun n hn => by cases hidle.symm.trans hn
    · exact fun n hn => by cases hheld.symm.trans hn
  cases task with
  | call stage =>
      cases stage with
      | entering =>
          cases h
          exact ⟨rfl, .enter rfl, fun _ => rfl⟩
      | claiming n =>
          unfold Thread.move? Call.move at h
          dsimp only at h
          cases hclaim : s.world.flights.claim? n with
          | none =>
              rw [hclaim] at h
              cases h
              exact ⟨rfl, hnothing rfl rfl rfl, fun _ => rfl⟩
          | some flights =>
              rw [hclaim] at h
              cases h
              obtain ⟨rfl, hfree⟩ := Flights.free_of_claim? hclaim
              exact ⟨rfl, .take rfl hfree rfl ⟨rfl, rfl⟩, fun _ => rfl⟩
      | marking n =>
          cases h
          exact ⟨rfl, .stay (fun _ => rfl) Array.size_modify
            (Flights.running_change (g := fun a => { a with rerun := true })
              (fun _ => rfl) n)
            (fun _ => ⟨nofun, nofun, nofun⟩) nofun, fun _ => rfl⟩
      | leaving n claimed =>
          cases h
          cases claimed with
          | true =>
              exact ⟨rfl, hstay (fun hx => ⟨hx.held, nofun, nofun⟩) fun _ h => h,
                nofun⟩
          | false => exact ⟨rfl, hnothing rfl rfl rfl, nofun⟩
      | spawning n =>
          unfold Thread.move? at h
          dsimp only at h
          split at h
          · cases h
            exact ⟨rfl, .hand rfl, nofun⟩
          · cases h
            exact ⟨rfl, .release rfl rfl ⟨rfl, rfl, rfl⟩, nofun⟩
      | returned outcome => cases h
  | work n stage =>
      cases stage with
      | reclaiming =>
          cases h
          refine ⟨rfl, ?_, fun _ => rfl⟩
          split
          · rename_i hnumber
            refine hstay (fun _ => ⟨nofun, fun m hm => ?_, nofun⟩) nofun
            cases hm
            exact hnumber
          · exact hnothing rfl rfl rfl
      | following =>
          unfold Thread.move? at h
          dsimp only at h
          cases hstale : s.world.stale? id with
          | none =>
              rw [hstale] at h
              cases h
              exact ⟨rfl, hnothing rfl rfl rfl, nofun⟩
          | some current =>
              rw [hstale] at h
              cases h
              exact ⟨rfl, hnothing rfl rfl rfl, nofun⟩
      | _ =>
          obtain ⟨hprovider, hop, hout⟩ := operates_of_work hcomes h nofun nofun
          exact ⟨hprovider, hop, fun hin => by cases hout.symm.trans hin⟩
  | retaking n =>
      unfold Thread.move? at h
      dsimp only at h
      cases hclaim : s.world.flights.claim? n with
      | none =>
          rw [hclaim] at h
          cases h
          exact ⟨rfl, hnothing rfl rfl rfl, fun _ => rfl⟩
      | some flights =>
          rw [hclaim] at h
          cases h
          obtain ⟨rfl, hfree⟩ := Flights.free_of_claim? hclaim
          exact ⟨rfl, .take rfl hfree rfl ⟨rfl, rfl⟩, fun _ => rfl⟩
  | retaken n again =>
      cases h
      cases again with
      | true =>
          exact ⟨rfl, hstay (fun hx => ⟨hx.held, nofun, nofun⟩) fun _ h => h,
            nofun⟩
      | false => exact ⟨rfl, hnothing rfl rfl rfl, nofun⟩
  | removal stage =>
      cases stage with
      | entering =>
          cases h
          refine ⟨rfl, ?_, fun _ => rfl⟩
          cases hnumber : s.world.flights.number? id with
          | none => exact hnothing rfl rfl rfl
          | some n =>
              refine hstay (fun _ => ⟨nofun, fun m hm => ?_, nofun⟩) nofun
              cases hm
              exact hnumber
      | testing n =>
          cases h
          refine ⟨rfl, ?_, fun _ => rfl⟩
          split
          · exact hnothing rfl rfl rfl
          · rename_i hfree
            refine hstay (fun hx => ⟨nofun, hx.found, fun m hm => ?_⟩) nofun
            cases hm
            exact Bool.eq_false_iff.2 hfree
      | dropping n =>
          cases h
          exact ⟨rfl, .drop rfl, fun _ => rfl⟩
      | results | waiting | leaving =>
          cases h
          exact ⟨rfl, hnothing rfl rfl rfl, nofun⟩
      | removed => cases h
  | ended => cases h

end Steps

end AblOutline.Scheduler
