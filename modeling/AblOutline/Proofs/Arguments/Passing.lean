/-
Named arguments handed on to another file. They are written out again with
each value between double quotes. A name that was read holds no equals sign
and does not break (`name_of_mem_argumentsFrom`), so it may stand before the
sign again; with values that hold no double quote, and names that leave
nothing open, the directive that they are written into has the same named
arguments (`named_passed_on`). A value that was read between single quotes may
hold a double quote, and such a value is cut short
(`passed_value_cut_at_quote`).
-/
import AblOutline.Proofs.Arguments

namespace AblOutline.Preprocess

open Text (isBlank)

-- ================================================================= names

section Names

variable {o : Opening} {c : Char} {cs word : List Char}
  {ws : List (List Char)} {pending : Pending}

/-- What may stand as the name of an argument. -/
def IsName (cs : List Char) : Prop := '=' ∉ cs ∧ Opening.Unbroken {} cs

/-- A name that is waiting for its value is one. -/
def Pending.Named : Pending → Prop
  | .nothing => True
  | .sign name | .value name => IsName name

theorem Pending.named_start (h : Opening.Unbroken {} word) :
    (∀ name value, .named name value ∈ (start word).1 → IsName name)
      ∧ (start word).2.Named := by
  unfold start
  split
  · next word =>
      have hword : Opening.Unbroken {} word := h.2
      split
      · next name hcut =>
          obtain ⟨hplain, rfl⟩ := Text.of_cutFirst? hcut
          exact ⟨by simp, hplain, (Opening.unbroken_append.1 hword).1⟩
      · next name given _ hcut =>
          obtain ⟨hplain, rfl⟩ := Text.of_cutFirst? hcut
          refine ⟨?_, trivial⟩
          intro n v hmem
          cases List.mem_singleton.1 hmem
          exact ⟨hplain, (Opening.unbroken_append.1 hword).1⟩
      · next hcut =>
          exact ⟨by simp, Text.cutFirst?_eq_none_iff.1 hcut, hword⟩
  · exact ⟨by simp, trivial⟩

theorem Pending.named_take (hp : pending.Named) (h : Opening.Unbroken {} word) :
    (∀ name value, .named name value ∈ (pending.take word).1 → IsName name)
      ∧ (pending.take word).2.Named := by
  unfold take
  split
  · exact named_start h
  · refine ⟨fun n v hmem => ?_, trivial⟩
    cases List.mem_singleton.1 hmem
    exact hp
  · exact ⟨by simp, hp⟩
  · refine ⟨fun n v hmem => ?_, trivial⟩
    cases List.mem_singleton.1 hmem
    exact hp
  · obtain ⟨hdone, hleft⟩ := named_start h
    refine ⟨fun n v hmem => ?_, hleft⟩
    rcases List.mem_cons.1 hmem with heq | hmem
    · cases heq
      exact hp
    · exact hdone n v hmem

/-- Every name that is read from words may stand as one again. -/
theorem name_of_mem_argumentsFrom (h : ∀ w ∈ ws, Opening.Unbroken {} w)
    (hp : pending.Named) {name value : List Char}
    (hmem : .named name value ∈ argumentsFrom pending ws) : IsName name := by
  induction ws generalizing pending with
  | nil =>
      cases pending with
      | nothing => cases hmem
      | sign n | value n =>
          cases List.mem_singleton.1 hmem
          exact hp
  | cons w ws ih =>
      obtain ⟨hw, hws⟩ := List.forall_mem_cons.1 h
      obtain ⟨hdone, hleft⟩ := Pending.named_take hp hw
      rcases List.mem_append.1 hmem with hmem | hmem
      · exact hdone name value hmem
      · exact ih hws hleft hmem

/-- What is open is closed by a mark, and marks have no small letters. -/
def Opening.Marked (o : Opening) : Prop := ∀ q ∈ o.quote, q.isAlpha = false

theorem Opening.Marked.next (h : o.Marked) (c : Char) : (o.next c).Marked := by
  obtain ⟨_ | q, depth⟩ := o
  · rw [next_none]
    split
    · next hc =>
        rintro q hq
        cases hq
        rcases hc with rfl | rfl <;> rfl
    · split
      · rintro q ⟨⟩
      · split <;> rintro q ⟨⟩
  · rw [next_quote]
    split
    · rintro q ⟨⟩
    · exact h

theorem Opening.next_toLower (h : o.Marked) (c : Char) :
    o.next c.toLower = o.next c := by
  have hmark (k : Char) (hk : k.isAlpha = false) : c.toLower = k ↔ c = k :=
    Text.toLower_eq_iff hk
  obtain ⟨_ | q, depth⟩ := o
  · by_cases hc : c = '"' ∨ c = '\x27'
    · rcases hc with rfl | rfl <;> rfl
    · simp only [next_none, hmark '"' rfl, hmark '\x27' rfl, hmark '\x7b' rfl,
        hmark '\x7d' rfl, if_neg hc]
  · simp only [next_quote, hmark q (h q rfl)]

theorem Opening.unbroken_toLower (h : o.Marked) :
    o.Unbroken (cs.map Char.toLower) ↔ o.Unbroken cs := by
  induction cs generalizing o with
  | nil => rfl
  | cons c cs ih =>
      rw [List.map_cons, Unbroken, Unbroken, Text.isBlank_toLower,
        next_toLower h, ih (h.next c)]

theorem isName_toLower : IsName (cs.map Char.toLower) ↔ IsName cs := by
  have hplain : '=' ∈ cs.map Char.toLower ↔ '=' ∈ cs := by
    simp [Text.toLower_eq_iff]
  unfold IsName
  rw [hplain, Opening.unbroken_toLower (by simp [Opening.Marked])]

/-- The names of an include directive are in small letters and may stand as
names again. -/
theorem name_of_parse? {text : String} {call : IncludeCall}
    (h : IncludeCall.parse? text = some call) :
    ∀ pair ∈ call.named, IsName pair.1.toList ∧ Text.lower pair.1 = pair.1 := by
  intro pair hpair
  unfold IncludeCall.parse? at h
  split at h
  · cases h
  · next file rest hwords =>
      cases h
      obtain ⟨a, ha, hpair⟩ := List.mem_filterMap.1 hpair
      have hws : ∀ w ∈ rest.map (·.text), Opening.Unbroken {} w := by
        intro w hw
        obtain ⟨p, hp, rfl⟩ := List.mem_map.1 hw
        have hword := List.mem_cons_of_mem file hp
        rw [← hwords] at hword
        exact unbroken_of_mem_words hword
      cases a with
      | positional => cases hpair
      | named name value =>
          cases hpair
          refine ⟨?_, Text.lower_lower _⟩
          rw [Text.toList_lower, String.toList_ofList, isName_toLower]
          have hnothing : Pending.nothing.Named := trivial
          exact name_of_mem_argumentsFrom hws hnothing ha

end Names

-- =========================================================== written again

section WrittenAgain

variable {name value : List Char}

/-- A named argument as it is written for another file. -/
def passed (name value : List Char) : List Char :=
  '&' :: (name ++ '=' :: '"' :: (value ++ ['"']))

theorem whole_passed (hname : Whole name) (hvalue : '"' ∉ value) :
    Whole (passed name value) := by
  have hmark : Whole ['&'] := whole_singleton (by decide)
  have hsign : Whole ['='] := whole_singleton (by decide)
  exact hmark.append
    (hname.append (hsign.append (whole_quoted (Or.inl rfl) hvalue)))

theorem isBlank_of_mem_space : ∀ c ∈ [' '], Text.isBlank c = true :=
  List.forall_mem_singleton.2 (by decide)

/-- Words with one blank between them are these words. -/
theorem words_intercalate {ws : List (List Char)} (h : ∀ w ∈ ws, Whole w)
    (hne : ∀ w ∈ ws, w ≠ []) :
    (words ([' '].intercalate ws)).map (·.text) = ws := by
  induction ws with
  | nil => rfl
  | cons w ws ih =>
      obtain ⟨hw, hws⟩ := List.forall_mem_cons.1 h
      obtain ⟨hwne, hwsne⟩ := List.forall_mem_cons.1 hne
      cases ws with
      | nil =>
          have hone : words (w ++ []) = ⟨w, []⟩ :: words [] :=
            words_append hw hwne (by simp)
          rw [List.append_nil] at hone
          rw [List.intercalate_singleton, hone]
          rfl
      | cons v ws =>
          rw [List.intercalate_cons_cons, List.append_assoc,
            words_append_blank hw hwne isBlank_of_mem_space (by simp),
            List.map_cons, ih hws hwsne]

theorem argumentsOf_passed {pairs : List (String × String)}
    (h : ∀ pair ∈ pairs, '=' ∉ pair.1.toList) :
    argumentsOf (pairs.map fun pair => passed pair.1.toList pair.2.toList)
      = pairs.map fun pair =>
          .named pair.1.toList ('"' :: (pair.2.toList ++ ['"'])) := by
  induction pairs with
  | nil => rfl
  | cons pair pairs ih =>
      obtain ⟨hpair, hpairs⟩ := List.forall_mem_cons.1 h
      have hstart := Written.Argument.start_given hpair
        (List.cons_ne_nil '"' (pair.2.toList ++ ['"']))
      rw [List.map_cons, argumentsOf, argumentsFrom, Pending.take, passed,
        hstart]
      exact congrArg _ (ih hpairs)

theorem toList_namedText (call : IncludeCall) :
    call.namedText.toList = [' '].intercalate
      (call.named.map fun pair => passed pair.1.toList pair.2.toList) := by
  rw [IncludeCall.namedText, String.toList_intercalate, List.map_map]
  congr 1
  refine List.map_congr_left fun pair _ => ?_
  simp [passed]

/-- The named arguments of one directive, written into another, are read there
as they were: no value may hold a double quote, and no name may leave a quote
or a brace open. -/
theorem named_passed_on {text : String} {call : IncludeCall}
    (h : IncludeCall.parse? text = some call)
    (hvalues : ∀ pair ∈ call.named, '"' ∉ pair.2.toList)
    (hnames : ∀ pair ∈ call.named, Opening.after {} pair.1.toList = {})
    {file : String} (hfile : file ≠ "")
    (hbare : ∀ c ∈ file.toList, isBare c = true) :
    ∃ read, IncludeCall.parse?
        ("\x7b" ++ file ++ " " ++ call.namedText ++ "\x7d") = some read
      ∧ read.file = file ∧ read.named = call.named ∧ read.positional = [] := by
  have hname := name_of_parse? h
  have hne : file.toList ≠ [] := by simpa using hfile
  set ws := call.named.map fun pair => passed pair.1.toList pair.2.toList
    with hws
  have hwhole : ∀ w ∈ ws, Whole w := by
    intro w hw
    obtain ⟨pair, hpair, rfl⟩ := List.mem_map.1 hw
    exact whole_passed ⟨(hname pair hpair).1.2, hnames pair hpair⟩
      (hvalues pair hpair)
  have hmarked : ∀ w ∈ ws, w ≠ [] := by
    intro w hw
    obtain ⟨pair, -, rfl⟩ := List.mem_map.1 hw
    exact List.cons_ne_nil _ _
  have hwords : words (betweenBraces
      ("\x7b" ++ file ++ " " ++ call.namedText ++ "\x7d").toList)
      = ⟨file.toList, [' '] ++ [' '].intercalate ws⟩
          :: words ([' '].intercalate ws) := by
    have htext : ("\x7b" ++ file ++ " " ++ call.namedText ++ "\x7d").toList
        = '\x7b' :: (file.toList ++ ([' '] ++ [' '].intercalate ws)
            ++ ['\x7d']) := by
      simp [toList_namedText, hws]
    rw [htext, Written.betweenBraces_braced]
    exact words_append_blank (whole_of_bare hbare) hne isBlank_of_mem_space
      (by simp) _
  have hread : argumentsOf ((words ([' '].intercalate ws)).map (·.text))
      = call.named.map fun pair =>
          .named pair.1.toList ('"' :: (pair.2.toList ++ ['"'])) := by
    rw [words_intercalate hwhole hmarked, hws]
    exact argumentsOf_passed fun pair hpair => (hname pair hpair).1.1
  refine ⟨_, by rw [IncludeCall.parse?, hwords], ?_, ?_, ?_⟩
  · rw [IncludeCall.valueOf, Written.Value.stripQuotes_of_bare hbare,
      String.ofList_toList]
  · rw [hread, List.filterMap_map]
    refine Eq.trans (List.filterMap_congr fun pair hpair => ?_)
      (List.filterMap_some)
    have hquotes := Written.Value.stripQuotes_quoted (Or.inl rfl) pair.2.toList
    simp only [Function.comp, IncludeCall.named?, IncludeCall.valueOf, hquotes,
      String.ofList_toList, (hname pair hpair).2]
  · refine List.filterMap_eq_nil_iff.2 fun a ha => ?_
    rw [hread] at ha
    obtain ⟨pair, -, rfl⟩ := List.mem_map.1 ha
    rfl

/-- Two arguments are handed on, one with a blank and the other with an
apostrophe in its value. -/
theorem named_passed_on_two :
    ∃ call, IncludeCall.parse? "\x7ba.i &A=\x27x y\x27 7 &b=\"it\x27s\"\x7d" = some call
      ∧ call.named = [("a", "x y"), ("b", "it\x27s")]
      ∧ ∃ read, IncludeCall.parse?
          ("\x7b" ++ "f.i" ++ " " ++ call.namedText ++ "\x7d") = some read
        ∧ read.file = "f.i" ∧ read.named = call.named
        ∧ read.positional = [] := by
  have hcall : IncludeCall.parse? "\x7ba.i &A=\x27x y\x27 7 &b=\"it\x27s\"\x7d" = some
      { file := "a.i"
        named := [("a", "x y"), ("b", "it\x27s")]
        positional := ["7"]
        rawArguments := "&A=\x27x y\x27 7 &b=\"it\x27s\"" } := by
    decide +kernel
  exact ⟨_, hcall, rfl,
    named_passed_on hcall (by decide) (by decide) (by decide)
      (List.all_eq_true.1 (by decide))⟩

/-- Between single quotes a value may hold a double quote. Written again it
ends at that quote, and the rest of it is read as an argument of its own. -/
theorem passed_value_cut_at_quote :
    ∃ call read, IncludeCall.parse? "\x7ba.i &a=\x27x\" y\x27\x7d" = some call
      ∧ call.named = [("a", "x\" y")]
      ∧ IncludeCall.parse? ("\x7b" ++ "f" ++ " " ++ call.namedText ++ "\x7d")
          = some read
      ∧ read.named = [("a", "x")] ∧ read.positional = ["y\""] := by
  refine ⟨{ file := "a.i", named := [("a", "x\" y")], positional := []
            rawArguments := "&a=\x27x\" y\x27" },
    { file := "f", named := [("a", "x")], positional := ["y\""]
      rawArguments := "&a=\"x\" y\"" }, ?_, rfl, ?_, rfl, rfl⟩
  · decide +kernel
  · decide +kernel

end WrittenAgain

end AblOutline.Preprocess
