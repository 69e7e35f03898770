/-
What a session may rely on. Between two turns every entry of the cache has the
tokens of its file as it is then (`Session.Reached.mirrors`): a turn that
changes a file ends with its path out of the cache, and what it read of other
files was not changed. So to parse a file again comes to what it comes to over
an empty cache.

A file that was changed is still cached while it is parsed. Its old tokens are
seen where a directive includes the file itself, and only there
(`session_fresh`, `own_inclusion_stale`).
-/
import AblOutline.Session
import AblOutline.Proofs.Cached.Run

namespace AblOutline

open Parse

/-- A directive includes the file at that path. -/
def IncludeChain.Includes (chain : IncludeChain) (path : String) : Prop :=
  ∃ f ∈ chain.files.toList,
    f.trigger.isSome = true ∧ f.path.any (Path.same · path) = true

instance (chain : IncludeChain) (path : String) :
    Decidable (chain.Includes path) :=
  inferInstanceAs (Decidable (∃ f ∈ chain.files.toList, _ ∧ _))

/-- All paths but one. -/
def Elsewhere (path : String) (p : String) : Prop := Path.same p path = false

theorem IncludeChain.trustedIn_elsewhere {chain : IncludeChain}
    {path : String} (h : ¬ chain.Includes path) :
    chain.TrustedIn (Elsewhere path) := by
  intro i f p hf htrigger hp
  by_contra hsame
  refine h ⟨f, Array.mem_toList_iff.2 (Array.mem_of_getElem? hf), htrigger, ?_⟩
  rw [hp]
  exact eq_true_of_ne_false hsame

-- =================================================================== texts

theorem Path.same_congr {p q : String} (h : Path.same p q = true)
    (path : String) : Path.same p path = Path.same q path := by
  have hparts : Path.parts p = Path.parts q := eq_of_beq h
  unfold Path.same
  rw [hparts]

namespace Texts

variable {t : Texts} {p q : String}

theorem text?_same (h : Path.same p q = true) : t.text? p = t.text? q := by
  have hfind : ∀ e : String × String, Path.same e.1 p = Path.same e.1 q := by
    intro e
    rw [Path.same_comm e.1 p, Path.same_comm e.1 q]
    exact Path.same_congr h e.1
  unfold Texts.text?
  simp only [hfind]

theorem text?_write (text : String) : (t.write p text).text? p = some text := by
  have hfirst : (t.write p text).entries.find? (fun e => Path.same e.1 p)
      = some (p, text) := List.find?_cons_of_pos (Path.same_refl p)
  unfold Texts.text?
  rw [hfirst]
  rfl

theorem text?_write_elsewhere (h : Elsewhere p q) (text : String) :
    (t.write p text).text? q = t.text? q := by
  have hne : ¬ Path.same p q = true := by
    rw [Path.same_comm, show Path.same q p = false from h]
    exact Bool.false_ne_true
  have hrest : (t.write p text).entries.find? (fun e => Path.same e.1 q)
      = t.entries.find? fun e => Path.same e.1 q := List.find?_cons_of_neg hne
  unfold Texts.text?
  rw [hrest]

theorem resolver_respectsPaths (t : Texts) : t.resolver.RespectsPaths := by
  intro p q h
  unfold Texts.resolver
  dsimp only
  rw [text?_same h]

theorem tokens?_resolver (t : Texts) (path : String) :
    t.resolver.tokens? path = (t.text? path).map tokenize := by
  unfold Resolver.tokens? Texts.resolver
  dsimp only
  cases t.text? path <;> rfl

/-- Where a file that can be read is at the path, all others can be
trusted. -/
theorem trustworthy_elsewhere (h : (t.text? p).isSome = true) :
    Trustworthy t.resolver (Elsewhere p) := by
  refine ⟨t.resolver_respectsPaths, fun q q' hq => ?_, fun q hq => ?_⟩
  · unfold Elsewhere
    rw [Path.same_congr hq]
  · rw [tokens?_resolver, text?_same (eq_true_of_ne_false hq),
      Option.isSome_map]
    exact h

end Texts

-- =================================================================== caches

namespace TokenCache

variable {c : TokenCache} {t : Texts} {p text : String}

/-- What the cache has of other files stands when a file is changed. -/
theorem Mirrors.write (h : c.Mirrors t.resolver) :
    c.MirrorsOn (t.write p text).resolver (Elsewhere p) := by
  intro e he helse
  rw [Texts.tokens?_resolver, Texts.text?_write_elsewhere helse,
    ← Texts.tokens?_resolver]
  exact h e he

theorem elsewhere_of_get?_none (h : c.get? p = none) :
    ∀ e ∈ c.entries, Elsewhere p e.1 := by
  have hfind := List.find?_eq_none.1 (Option.map_eq_none_iff.1 h)
  exact fun e he => eq_false_of_ne_true (hfind e he)

/-- A cache that has nothing of one file is to be trusted if it is on all
others. -/
theorem MirrorsOn.mirrors {r : Resolver} (h : c.MirrorsOn r (Elsewhere p))
    (hp : c.get? p = none) : c.Mirrors r :=
  fun e he => h e he (elsewhere_of_get?_none hp e he)

end TokenCache

-- ================================================================= sessions

namespace Session

variable {s s' : Session} {t : Turn} {steps : Nat} {path text : String}
  {outcome : Except LoadError ParsedFile}

/-- What can come of a session that began with nothing cached. -/
inductive Reached : Session → Prop where
  | start (s : Session) : Reached s.fresh
  | turn {s s' : Session} {steps : Nat} {t : Turn}
      {outcome : Except LoadError ParsedFile} (h : Reached s)
      (ht : s.turn? steps t = some (outcome, s')) : Reached s'

/-- A turn parses the text that its file has then. -/
theorem turn?_of_text (h : (s.begun t).texts.text? t.path = some text) :
    s.turn? steps t
      = (parse? steps (s.begun t).project.environment s.cache text
          (some t.path)).map fun r =>
        (.ok r.file, { s.begun t with cache := r.cache }) := by
  have hload : (s.begun t).project.environment.resolver.load t.path
      = .ok text := by
    unfold Session.project Texts.resolver
    dsimp only
    rw [h]
  unfold turn? Project.parseFile? Project.parse?
  rw [hload]
  dsimp only
  rw [Option.map_map, Option.map_map]
  rfl

/-- Where there is no file, nothing is parsed. -/
theorem turn?_of_none (h : (s.begun t).texts.text? t.path = none) :
    s.turn? steps t = some (.error (.read t.path .missing), s.begun t) := by
  have hload : (s.begun t).project.environment.resolver.load t.path
      = .error .missing := by
    unfold Session.project Texts.resolver
    dsimp only
    rw [h]
  unfold turn? Project.parseFile?
  rw [hload]
  rfl

theorem text?_edit : (s.begun (.edit path text)).texts.text? path = some text :=
  Texts.text?_write text

theorem turn_mirrors (h : s.cache.Mirrors s.texts.resolver)
    (ht : s.turn? steps t = some (outcome, s')) :
    s'.cache.Mirrors s'.texts.resolver := by
  cases htext : (s.begun t).texts.text? t.path with
  | none =>
      rw [turn?_of_none htext] at ht
      cases ht
      cases t with
      | edit path text => cases text?_edit.symm.trans htext
      | reread path => exact h
  | some text =>
      rw [turn?_of_text htext] at ht
      obtain ⟨r, hr, he⟩ := Option.map_eq_some_iff.1 ht
      cases he
      cases t with
      | edit path text =>
          have hkept := parse_mirrors h.write hr
          exact hkept.1.mirrors (hkept.2 path rfl)
      | reread path =>
          have hkept := parse_mirrors (TokenCache.mirrors_iff.1 h) hr
          exact TokenCache.mirrors_iff.2 hkept.1

/-- Between two turns the cache has nothing but the tokens of the files as
they are. -/
theorem Reached.mirrors (h : s.Reached) : s.cache.Mirrors s.texts.resolver := by
  induction h with
  | start s => nofun
  | turn _ ht ih => exact turn_mirrors ih ht

theorem outcome?_of_text (h : (s.begun t).texts.text? t.path = some text) :
    s.outcome? steps t
      = ((parse? steps (s.begun t).project.environment s.cache text
          (some t.path)).map (·.file)).map .ok := by
  unfold outcome?
  rw [turn?_of_text h, Option.map_map, Option.map_map]
  rfl

/-- Over a cache that mirrors the files as they are when the parse begins, a
turn has the outcome that it has over an empty one. -/
theorem outcome?_fresh (hc : s.cache.Mirrors (s.begun t).texts.resolver) :
    s.outcome? steps t = s.fresh.outcome? steps t := by
  cases htext : (s.begun t).texts.text? t.path with
  | none =>
      unfold outcome?
      rw [turn?_of_none htext, turn?_of_none (s := s.fresh) htext]
      rfl
  | some text =>
      rw [outcome?_of_text htext, outcome?_of_text (s := s.fresh) htext]
      exact congrArg _ (parse_same (Texts.resolver_respectsPaths _)
        (TokenCache.mirrors_iff.1 hc) TokenCache.mirrorsOn_empty)

/-- A changed file that is not included by itself, nor by what it includes. -/
theorem outcome?_edit {file : ParsedFile}
    (hc : s.cache.Mirrors s.texts.resolver)
    (hfile : s.fresh.outcome? steps (.edit path text) = some (.ok file))
    (hown : ¬ file.chain.Includes path) :
    s.outcome? steps (.edit path text) = some (.ok file) := by
  rw [outcome?_of_text (s := s.fresh) text?_edit] at hfile
  rw [outcome?_of_text text?_edit]
  obtain ⟨file', hparse, he⟩ := Option.map_eq_some_iff.1 hfile
  cases he
  obtain ⟨r, hr, rfl⟩ := Option.map_eq_some_iff.1 hparse
  have halone : parse? steps (s.begun (.edit path text)).project.environment {}
      text (some (Turn.edit path text).path) = some r := hr
  obtain ⟨r', hr', hsame⟩ := parse_agrees
    (Texts.trustworthy_elsewhere (Option.isSome_of_eq_some text?_edit))
    TokenCache.mirrorsOn_empty hc.write halone
    (IncludeChain.trustedIn_elsewhere hown)
  rw [hr', ← hsame]
  rfl

end Session

/-- In a session that began with nothing cached and parses every file that it
changes, a file that is parsed again has the outcome that it has over an empty
cache; and so has a file that is parsed because it was changed, unless it is
cached and a directive includes it. -/
theorem session_fresh {s : Session} (h : s.Reached) (steps : Nat)
    (path : String) :
    s.outcome? steps (.reread path) = s.fresh.outcome? steps (.reread path)
    ∧ ∀ text,
      (s.cache.get? path = none →
        s.outcome? steps (.edit path text)
          = s.fresh.outcome? steps (.edit path text))
      ∧ ∀ file,
        s.fresh.outcome? steps (.edit path text) = some (.ok file) →
        ¬ file.chain.Includes path →
        s.outcome? steps (.edit path text) = some (.ok file) := by
  have hc := h.mirrors
  refine ⟨Session.outcome?_fresh hc, fun text => ⟨fun hnone => ?_,
    fun file => Session.outcome?_edit hc⟩⟩
  exact Session.outcome?_fresh (hc.write.mirrors hnone)

/-- A cached file that is changed and does not include itself. -/
theorem session_fresh_edit :
    ∃ (s : Session) (file : ParsedFile), s.Reached
      ∧ (s.cache.get? "a.i").isSome = true
      ∧ file.items.toList.map (·.name) = ["a.i", "b"]
      ∧ s.outcome? 40 (.edit "a.i" "RUN b.\n") = some (.ok file) := by
  let first : Session := { texts := ⟨[("a.i", "RUN a.\n")]⟩ }
  have hread : (first.fresh.turn? 40 (.edit "main.p" "\x7ba.i\x7d\n")).any
      (fun done => (done.2.cache.get? "a.i").isSome
        && ((done.2.fresh.outcome? 40 (.edit "a.i" "RUN b.\n")).bind
          (·.toOption)).any fun file => file.items.toList.map (·.name)
            = ["a.i", "b"] ∧ ¬ file.chain.Includes "a.i") = true := by
    decide +kernel
  obtain ⟨⟨_, s⟩, hturn, hsays⟩ := (Option.any_eq_true _ _).1 hread
  obtain ⟨hcached, hsays⟩ := Bool.and_eq_true_iff.1 hsays
  obtain ⟨file, hfile, hsays⟩ := (Option.any_eq_true _ _).1 hsays
  obtain ⟨hnames, hown⟩ := of_decide_eq_true hsays
  obtain ⟨outcome, houtcome, hok⟩ := Option.bind_eq_some_iff.1 hfile
  have hs : s.Reached := .turn (.start first) hturn
  cases outcome with
  | error error => cases hok
  | ok _ =>
      cases hok
      exact ⟨s, file, hs, hcached, hnames,
        ((session_fresh hs 40 "a.i").2 _).2 file houtcome hown⟩

/-- A cached file that is changed to include itself: its old tokens come where
it is included. -/
theorem own_inclusion_stale :
    ∃ s : Session, s.Reached
      ∧ s.outcome? 40 (.edit "a.i" "\x7ba.i\x7d\n")
        ≠ s.fresh.outcome? 40 (.edit "a.i" "\x7ba.i\x7d\n") := by
  let first : Session :=
    { options := { maxIncludeDepth := 1 }, texts := ⟨[("a.i", "RUN a.\n")]⟩ }
  let items (s : Session) : Option (Option Nat) :=
    (s.outcome? 40 (.edit "a.i" "\x7ba.i\x7d\n")).map fun outcome =>
      outcome.toOption.map (·.items.size)
  have hread : (first.fresh.turn? 40 (.edit "main.p" "\x7ba.i\x7d\n")).any
      (fun done => items done.2 ≠ items done.2.fresh) = true := by
    decide +kernel
  obtain ⟨⟨_, s⟩, hturn, hsays⟩ := (Option.any_eq_true _ _).1 hread
  refine ⟨s, .turn (.start first) hturn, fun he => ?_⟩
  exact of_decide_eq_true hsays (congrArg (Option.map _) he)

end AblOutline
