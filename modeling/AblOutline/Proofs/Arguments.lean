/-
How the arguments of an include directive are written, and that every way is
read alike. A value stands bare or between quotes that it does not hold; a
named argument may have white space on either side of its equals sign
(`Written`). Each argument is spelled in words of its own
(`Written.Argument.words_append`) that complete that argument and leave nothing
open (`Written.Argument.argumentsOf_append`), so the arguments of a directive
are read one by one, whatever stands next to them (`parse?_written`).
-/
import AblOutline.Proofs.Arguments.Words
import AblOutline.Proofs.Pieces

namespace AblOutline.Preprocess

open Text (isBlank)

namespace Written

-- ================================================================ values

/-- A value as it may be written. -/
inductive Value where
  | bare (value : List Char) (nonempty : value ≠ [])
      (bare : ∀ c ∈ value, isBare c = true)
  | quoted (quote : Char) (value : List Char)
      (mark : quote = '"' ∨ quote = '\x27') (inner : quote ∉ value)

namespace Value

/-- The value itself. -/
def value : Value → List Char
  | bare value .. => value
  | quoted _ value .. => value

/-- The value as written. -/
def text : Value → List Char
  | bare value .. => value
  | quoted quote value .. => quote :: (value ++ [quote])

theorem text_ne_nil (v : Value) : v.text ≠ [] := by
  cases v with
  | bare _ nonempty _ => exact nonempty
  | quoted => exact List.cons_ne_nil _ _

theorem whole (v : Value) : Whole v.text := by
  cases v with
  | bare _ _ hbare => exact whole_of_bare hbare
  | quoted _ _ mark inner => exact whole_quoted mark inner

/-- Quotes that stand around a value are not part of it. -/
theorem stripQuotes_quoted {q : Char} (hq : q = '"' ∨ q = '\x27')
    (cs : List Char) : Token.stripQuotes (q :: (cs ++ [q])) = cs := by
  rw [Token.stripQuotes, if_pos hq, Text.dropEnd]
  simp [Text.dropStart]

theorem stripQuotes_of_bare {cs : List Char}
    (h : ∀ c ∈ cs, isBare c = true) : Token.stripQuotes cs = cs := by
  cases cs with
  | nil => rfl
  | cons c cs =>
      have hc := (List.forall_mem_cons.1 h).1
      refine if_neg ?_
      rintro (rfl | rfl) <;> exact absurd hc (by decide)

theorem valueOf_text (v : Value) :
    IncludeCall.valueOf v.text = String.ofList v.value := by
  refine congrArg String.ofList ?_
  cases v with
  | bare _ _ hbare => exact stripQuotes_of_bare hbare
  | quoted _ value mark _ => exact stripQuotes_quoted mark value

end Value

-- ============================================================= arguments

/-- An argument as it may be written. A named one may have white space before
and after its equals sign. A positional one starts neither like a name nor
like the rest of a named one. -/
inductive Argument where
  | named (name before after : List Char) (value : Value)
      (nonempty : name ≠ []) (bare : ∀ c ∈ name, isBare c = true)
      (plain : '=' ∉ name) (before_blank : ∀ c ∈ before, isBlank c = true)
      (after_blank : ∀ c ∈ after, isBlank c = true)
  | positional (value : Value)
      (start : ∀ c ∈ value.text.head?, c ≠ '&' ∧ c ≠ '=')

namespace Argument

/-- The argument as written. -/
def text : Argument → List Char
  | named name before after value .. =>
    '&' :: (name ++ (before ++ '=' :: (after ++ value.text)))
  | positional value .. => value.text

/-- Name and value of a named argument. -/
def named? : Argument → Option (String × String)
  | named name _ _ value .. =>
    some (String.ofList name, String.ofList value.value)
  | positional .. => none

/-- The value of a positional argument. -/
def positional? : Argument → Option String
  | named .. => none
  | positional value .. => some (String.ofList value.value)

/-- The words that an argument is written in. -/
def words : Argument → List (List Char)
  | named name [] [] value .. => ['&' :: (name ++ '=' :: value.text)]
  | named name [] (_ :: _) value .. => ['&' :: (name ++ ['=']), value.text]
  | named name (_ :: _) [] value .. => ['&' :: name, '=' :: value.text]
  | named name (_ :: _) (_ :: _) value .. => ['&' :: name, ['='], value.text]
  | positional value .. => [value.text]

/-- The argument that these words are read as. -/
def read : Argument → Preprocess.Argument
  | named name _ _ value .. => .named name value.text
  | positional value .. => .positional value.text

variable {rest word given : List Char} {ws : List (List Char)}

/-- An argument is written in words of its own. -/
theorem words_append (a : Argument) (hrest : ∀ c ∈ rest.head?, isBlank c = true) :
    (Preprocess.words (a.text ++ rest)).map (·.text)
      = a.words ++ (Preprocess.words rest).map (·.text) := by
  cases a with
  | positional value _ =>
      rw [text, Preprocess.words_append value.whole value.text_ne_nil hrest]
      rfl
  | named name before after value _ bare _ before_blank after_blank =>
      have hname : Whole ('&' :: name) :=
        (whole_singleton (by decide)).append (whole_of_bare bare)
      have hsign : Whole ['='] := whole_singleton (by decide)
      have hlast := Preprocess.words_append value.whole value.text_ne_nil hrest
      have hsigned := Preprocess.words_append (hsign.append value.whole)
        (by simp) hrest
      -- without white space on a side of the sign, that side is one word
      cases before with
      | nil =>
          cases after with
          | nil =>
              have hone := Preprocess.words_append
                ((hname.append hsign).append value.whole) (by simp) hrest
              simpa [text, words] using congrArg (List.map (·.text)) hone
          | cons c after =>
              have hfirst := words_append_blank (hname.append hsign) (by simp)
                after_blank (by simp) (value.text ++ rest)
              rw [hlast] at hfirst
              simpa [text, words] using congrArg (List.map (·.text)) hfirst
      | cons b before =>
          cases after with
          | nil =>
              have hfirst := words_append_blank hname (by simp)
                before_blank (by simp) (['='] ++ value.text ++ rest)
              rw [hsigned] at hfirst
              simpa [text, words] using congrArg (List.map (·.text)) hfirst
          | cons c after =>
              have hmiddle := words_append_blank hsign (by simp)
                after_blank (by simp) (value.text ++ rest)
              have hfirst := words_append_blank hname (by simp)
                before_blank (by simp)
                (['='] ++ (c :: after ++ (value.text ++ rest)))
              rw [hmiddle, hlast] at hfirst
              simpa [text, words] using congrArg (List.map (·.text)) hfirst

theorem start_of_head (h : ∀ c ∈ word.head?, c ≠ '&') :
    Pending.start word = ([.positional word], .nothing) := by
  cases word with
  | nil => rfl
  | cons c word =>
      have hc := h c rfl
      unfold Pending.start
      split
      · next heq => cases heq; exact absurd rfl hc
      · rfl

theorem start_name (h : '=' ∉ word) :
    Pending.start ('&' :: word) = ([], .sign word) := by
  rw [Pending.start, Text.cutFirst?_eq_none_iff.2 h]

theorem start_sign (h : '=' ∉ word) :
    Pending.start ('&' :: (word ++ ['='])) = ([], .value word) := by
  rw [Pending.start, Text.cutFirst?_append h]

theorem start_given (h : '=' ∉ word) (hgiven : given ≠ []) :
    Pending.start ('&' :: (word ++ '=' :: given))
      = ([.named word given], .nothing) := by
  obtain ⟨c, cs, rfl⟩ := List.exists_cons_of_ne_nil hgiven
  rw [Pending.start, Text.cutFirst?_append h]

theorem take_sign (hgiven : given ≠ []) :
    Pending.take (.sign word) ('=' :: given)
      = ([.named word given], .nothing) := by
  obtain ⟨c, cs, rfl⟩ := List.exists_cons_of_ne_nil hgiven
  rfl

/-- The words of an argument complete it and leave nothing open. -/
theorem argumentsOf_append (a : Argument) :
    argumentsOf (a.words ++ ws) = a.read :: argumentsOf ws := by
  cases a with
  | positional value start =>
      simp only [argumentsOf, words, List.cons_append, List.nil_append,
        argumentsFrom, Pending.take, start_of_head fun c hc => (start c hc).1, read]
  | named name before after value _ _ plain _ _ =>
      have hgiven := value.text_ne_nil
      cases before with
      | nil =>
          cases after with
          | nil =>
              simp only [argumentsOf, words, List.cons_append, List.nil_append,
                argumentsFrom, Pending.take, start_given plain hgiven, read]
          | cons c after =>
              simp only [argumentsOf, words, List.cons_append, List.nil_append,
                argumentsFrom, Pending.take, start_sign plain, read]
      | cons b before =>
          cases after with
          | nil =>
              simp only [argumentsOf, words, List.cons_append, List.nil_append,
                argumentsFrom, Pending.take.eq_1, start_name plain,
                take_sign hgiven, read]
          | cons c after =>
              simp only [argumentsOf, words, List.cons_append, List.nil_append,
                argumentsFrom, Pending.take, start_name plain, read]

end Argument

-- ================================================================= calls

/-- White space that separates two words. -/
structure Gap where
  text : List Char
  nonempty : text ≠ []
  blank : ∀ c ∈ text, isBlank c = true

/-- Arguments as written after a file name. -/
def textOf (trailing : List Char) : List (Gap × Argument) → List Char
  | [] => trailing
  | (gap, a) :: rest => gap.text ++ (a.text ++ textOf trailing rest)

/-- An include directive as it may be written. -/
structure Call where
  file : List Char
  nonempty : file ≠ []
  bare : ∀ c ∈ file, isBare c = true
  arguments : List (Gap × Argument)
  trailing : List Char
  trailing_blank : ∀ c ∈ trailing, isBlank c = true

namespace Call

variable (call : Call)

/-- All that follows the file name. -/
def argumentText : List Char := textOf call.trailing call.arguments

/-- The directive as written. -/
def text : String :=
  String.ofList ('\x7b' :: (call.file ++ call.argumentText ++ ['\x7d']))

/-- The named arguments in order. -/
def named : List (String × String) := call.arguments.filterMap (·.2.named?)

/-- The positional arguments in order. -/
def positional : List String := call.arguments.filterMap (·.2.positional?)

end Call

section Calls

variable {trailing : List Char}

theorem textOf_head (h : ∀ c ∈ trailing, isBlank c = true)
    (args : List (Gap × Argument)) :
    ∀ c ∈ (textOf trailing args).head?, isBlank c = true := by
  intro c hc
  cases args with
  | nil => exact h c (List.mem_of_mem_head? hc)
  | cons arg args =>
      obtain ⟨gap, a⟩ := arg
      refine gap.blank c (List.mem_of_mem_head? ?_)
      rwa [textOf, List.head?_append_of_ne_nil _ gap.nonempty] at hc

theorem words_textOf (h : ∀ c ∈ trailing, isBlank c = true)
    (args : List (Gap × Argument)) :
    (words (textOf trailing args)).map (·.text)
      = args.flatMap (·.2.words) := by
  induction args with
  | nil =>
      have hskip := words_blank h []
      rw [List.append_nil] at hskip
      rw [textOf, hskip]
      rfl
  | cons arg args ih =>
      obtain ⟨gap, a⟩ := arg
      rw [textOf, words_blank gap.blank, a.words_append (textOf_head h args),
        ih, List.flatMap_cons]

theorem argumentsOf_words (args : List (Gap × Argument)) :
    argumentsOf (args.flatMap (·.2.words)) = args.map (·.2.read) := by
  induction args with
  | nil => rfl
  | cons arg args ih =>
      rw [List.flatMap_cons, arg.2.argumentsOf_append, ih, List.map_cons]

theorem named?_read (a : Argument) :
    IncludeCall.named? a.read
      = a.named?.map fun (name, value) => (Text.lower name, value) := by
  cases a with
  | named name _ _ value =>
      exact congrArg (fun text => some (_, text)) value.valueOf_text
  | positional => rfl

theorem positional?_read (a : Argument) :
    IncludeCall.positional? a.read = a.positional? := by
  cases a with
  | named => rfl
  | positional value => exact congrArg some value.valueOf_text

theorem betweenBraces_braced (cs : List Char) :
    betweenBraces ('\x7b' :: (cs ++ ['\x7d'])) = cs := by
  simp [betweenBraces, Text.dropEnd, Text.dropStart]

/-- A name is found in whatever case it is given. -/
theorem lookup_lower (given : List (String × String)) (name : String) :
    (given.map fun (n, value) => (Text.lower n, value)).lookup
        (Text.lower name)
      = (given.find? fun (n, _) => Text.same n name).map (·.2) := by
  induction given with
  | nil => rfl
  | cons pair given ih =>
      obtain ⟨n, value⟩ := pair
      rw [List.map_cons, List.lookup_cons, List.find?_cons]
      by_cases hn : Text.lower n = Text.lower name
      · simp [Text.same, hn]
      · simp only [Text.same, beq_eq_false_iff_ne.2 hn,
          beq_eq_false_iff_ne.2 (Ne.symm hn)]
        exact ih

end Calls

end Written

-- ================================================================ results

/-- Whatever way its arguments are written in, an include directive is read as
its file name and its arguments: the named ones in order, their names in small
letters, the positional ones in order, and all of them as they were written,
trimmed. A named argument is found in any case of its name, the first of that
name before the others, and a positional one by its number, counted from
one. -/
theorem parse?_written (call : Written.Call) :
    ∃ read, IncludeCall.parse? call.text = some read
      ∧ read.file = String.ofList call.file
      ∧ read.named
          = call.named.map (fun (name, value) => (Text.lower name, value))
      ∧ read.positional = call.positional
      ∧ read.rawArguments = Text.trim (String.ofList call.argumentText)
      ∧ (∀ name, read.argument? name
          = (call.named.find? fun (n, _) => Text.same n name).map (·.2))
      ∧ (∀ i, read.position? (i + 1) = call.positional[i]?)
      ∧ read.position? 0 = none := by
  have hwords : words (betweenBraces call.text.toList)
      = ⟨call.file, call.argumentText⟩ :: words call.argumentText := by
    rw [Written.Call.text, String.toList_ofList, Written.betweenBraces_braced]
    exact words_append (whole_of_bare call.bare) call.nonempty
      (Written.textOf_head call.trailing_blank call.arguments)
  have hread : argumentsOf ((words call.argumentText).map (·.text))
      = call.arguments.map (·.2.read) := by
    rw [Written.Call.argumentText, Written.words_textOf call.trailing_blank,
      Written.argumentsOf_words]
  have hnamed : (call.arguments.map (·.2.read)).filterMap IncludeCall.named?
      = call.named.map (fun (name, value) => (Text.lower name, value)) := by
    rw [List.filterMap_map, Written.Call.named, List.map_filterMap]
    exact List.filterMap_congr fun arg _ => Written.named?_read arg.2
  have hpositional :
      (call.arguments.map (·.2.read)).filterMap IncludeCall.positional?
        = call.positional := by
    rw [List.filterMap_map]
    exact List.filterMap_congr fun arg _ => Written.positional?_read arg.2
  refine ⟨_, by rw [IncludeCall.parse?, hwords], ?_, ?_, ?_, ?_, ?_, ?_, rfl⟩
  · exact congrArg String.ofList (Written.Value.stripQuotes_of_bare call.bare)
  · rw [hread, hnamed]
  · rw [hread, hpositional]
  · rw [Text.trim, String.toList_ofList]
  · intro name
    rw [IncludeCall.argument?, hread, hnamed, Written.lookup_lower]
  · intro i
    rw [IncludeCall.position?, if_neg (Nat.succ_ne_zero i), hread, hpositional,
      Nat.add_sub_cancel]

/-- The four spellings of a named argument, with a positional one among them. -/
def Written.spellings : Written.Call :=
  let gap : Gap := ⟨[' '], List.cons_ne_nil _ _, List.all_eq_true.1 rfl⟩
  let named (name : Char) (before after : List Char) (value : Value)
      (bare : isBare name = true) (plain : '=' ∉ [name])
      (blank : (before ++ after).all isBlank = true) : Argument :=
    .named [name] before after value (List.cons_ne_nil _ _)
      (List.forall_mem_singleton.2 bare) plain
      (fun c hc => List.all_eq_true.1 blank c (List.mem_append_left _ hc))
      (fun c hc => List.all_eq_true.1 blank c (List.mem_append_right _ hc))
  { file := ['f', '.', 'i']
    nonempty := List.cons_ne_nil _ _
    bare := List.all_eq_true.1 rfl
    arguments :=
      [(gap, named 'A' [] [] (.bare ['1'] (List.cons_ne_nil _ _)
          (List.all_eq_true.1 rfl)) rfl (by decide) rfl),
        (gap, named 'b' [] [' '] (.quoted '"' ['x', ' ', 'y'] (Or.inl rfl)
          (by decide)) rfl (by decide) rfl),
        (gap, .positional (.bare ['4', '2'] (List.cons_ne_nil _ _)
          (List.all_eq_true.1 rfl)) (by rintro c ⟨⟩; decide)),
        (gap, named 'c' [' '] [] (.bare ['2'] (List.cons_ne_nil _ _)
          (List.all_eq_true.1 rfl)) rfl (by decide) rfl),
        (gap, named 'D' [' '] [' '] (.quoted '\x27' ['3'] (Or.inr rfl)
          (by decide)) rfl (by decide) rfl)]
    trailing := [' ']
    trailing_blank := List.all_eq_true.1 rfl }

/-- They are all read alike. -/
theorem parse?_written_spellings :
    Written.spellings.text
        = "\x7bf.i &A=1 &b= \"x y\" 42 &c =2 &D = \x273\x27 \x7d"
      ∧ ∃ read, IncludeCall.parse? Written.spellings.text = some read
        ∧ read.file = "f.i"
        ∧ read.named = [("a", "1"), ("b", "x y"), ("c", "2"), ("d", "3")]
        ∧ read.positional = ["42"]
        ∧ read.rawArguments = "&A=1 &b= \"x y\" 42 &c =2 &D = \x273\x27"
        ∧ read.argument? "B" = some "x y" ∧ read.position? 1 = some "42" := by
  obtain ⟨read, hparse, hfile, hnamed, hpositional, hraw, hargument, hposition, -⟩ :=
    parse?_written Written.spellings
  exact ⟨by decide +kernel, read, hparse, hfile.trans (by decide +kernel),
    hnamed.trans (by decide +kernel), hpositional.trans (by decide +kernel),
    hraw.trans (by decide +kernel), (hargument "B").trans (by decide +kernel),
    (hposition 0).trans (by decide +kernel)⟩

end AblOutline.Preprocess
