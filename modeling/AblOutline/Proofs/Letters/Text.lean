/-
Texts in small letters. Making ASCII capitals small changes no mark, digit or
foreign character, no length and no byte count. So what a text is cut at or
trimmed of stands where it stood, a number keeps its value, and texts that are
compared without regard to case compare as before.
-/
import AblOutline.Condition.Value
import AblOutline.Preprocess.Arguments
import AblOutline.Proofs.Spelling
import Mathlib.Data.Nat.Digits.Defs

namespace AblOutline.Text

-- ============================================================ characters

section Characters

/-- What does not tell a capital from its small letter. -/
theorem toLower_class {α : Type} {p : Char → α}
    (h : ∀ n < 26, p (Char.ofNat (97 + n)) = p (Char.ofNat (65 + n)))
    (c : Char) : p c.toLower = p c := by
  by_cases hc : 65 ≤ c.toNat ∧ c.toNat ≤ 90
  · have hlower : c.toLower.toNat = c.toNat + 32 := by
      rw [toNat_toLower, if_pos hc]
    have hone := h (c.toNat - 65) (by omega)
    rw [show 97 + (c.toNat - 65) = c.toNat + 32 by omega,
      show 65 + (c.toNat - 65) = c.toNat by omega, ← hlower,
      Char.ofNat_toNat, Char.ofNat_toNat] at hone
    exact hone
  · rw [show c.toLower = c from Char.toNat_inj.1
      ((toNat_toLower c).trans (if_neg hc))]

variable (c : Char)

theorem toLower_toLower : c.toLower.toLower = c.toLower :=
  toLower_class (by decide) c

theorem toUpper_toLower : c.toLower.toUpper = c.toUpper :=
  toLower_class (by decide) c

theorem utf8Size_toLower : c.toLower.utf8Size = c.utf8Size :=
  toLower_class (by decide) c

theorem isAlpha_toLower : c.toLower.isAlpha = c.isAlpha :=
  toLower_class (by decide) c

theorem isDigit_toLower : c.toLower.isDigit = c.isDigit :=
  toLower_class (by decide) c

theorem isAlphanum_toLower : c.toLower.isAlphanum = c.isAlphanum :=
  toLower_class (by decide) c

theorem isBlank_toLower : isBlank c.toLower = isBlank c :=
  toLower_class (by decide) c

variable {c}

theorem toLower_of_not_isAlpha (h : c.isAlpha = false) : c.toLower = c := by
  apply Char.toNat_inj.1
  rw [toNat_toLower, if_neg]
  intro hrange
  have hupper : c.isUpper = true := decide_eq_true hrange
  have hletter : (c.isUpper || c.isLower) = false := h
  rw [hupper] at hletter
  cases hletter

/-- What is no letter is itself alone. -/
theorem toLower_eq_iff {k : Char} (hk : k.isAlpha = false) :
    c.toLower = k ↔ c = k := by
  constructor
  · rintro rfl
    rw [isAlpha_toLower] at hk
    exact (toLower_of_not_isAlpha hk).symm
  · rintro rfl
    exact toLower_of_not_isAlpha hk

theorem toLower_beq {k : Char} (hk : k.isAlpha = false) (c : Char) :
    (c.toLower == k) = (c == k) := by
  rw [Bool.eq_iff_iff, beq_iff_eq, beq_iff_eq, toLower_eq_iff hk]

end Characters

-- ================================================================ texts

section Texts

variable (a b s : String)

@[simp] theorem toList_lower : (lower s).toList = s.toList.map Char.toLower :=
  String.toList_ofList

theorem ofList_lower (cs : List Char) :
    lower (String.ofList cs) = String.ofList (cs.map Char.toLower) := by
  unfold lower
  rw [String.toList_ofList]

theorem lower_append : lower (a ++ b) = lower a ++ lower b := by
  apply String.toList_inj.1
  simp

theorem lower_lower : lower (lower s) = lower s := by
  apply String.toList_inj.1
  rw [toList_lower, toList_lower, List.map_map]
  exact List.map_congr_left fun c _ => toLower_toLower c

theorem upper_lower : upper (lower s) = upper s := by
  unfold upper
  rw [toList_lower, List.map_map]
  congr 1
  exact List.map_congr_left fun c _ => toUpper_toLower c

theorem same_lower (word : String) : same (lower s) word = same s word := by
  unfold same
  rw [lower_lower]

theorem startsSame_lower (word : String) :
    startsSame word (lower s) = startsSame word s := by
  unfold startsSame
  rw [lower_lower]

theorem utf8ByteSize_ofList_lower (cs : List Char) :
    (String.ofList (cs.map Char.toLower)).utf8ByteSize
      = (String.ofList cs).utf8ByteSize := by
  have hcons : ∀ (c : Char) (cs : List Char),
      (String.ofList (c :: cs)).utf8ByteSize
        = c.utf8Size + (String.ofList cs).utf8ByteSize := by
    intro c cs
    have hsplit : String.ofList (c :: cs)
        = String.singleton c ++ String.ofList cs := by
      apply String.toList_inj.1
      simp
    rw [hsplit, String.utf8ByteSize_append, String.utf8ByteSize_singleton]
  induction cs with
  | nil => rfl
  | cons c cs ih =>
      rw [List.map_cons, hcons, hcons, ih, utf8Size_toLower]

theorem utf8ByteSize_lower : (lower s).utf8ByteSize = s.utf8ByteSize := by
  unfold lower
  rw [utf8ByteSize_ofList_lower, String.ofList_toList]

theorem abbreviates_lower (keyword : String) (least : Nat) :
    abbreviates (lower s) keyword least = abbreviates s keyword least := by
  unfold abbreviates
  rw [utf8ByteSize_lower, startsSame_lower]

/-- A text without letters is itself alone. -/
theorem map_toLower_eq_iff {cs ks : List Char}
    (hk : ks.all (!·.isAlpha) = true) : cs.map Char.toLower = ks ↔ cs = ks := by
  induction cs generalizing ks with
  | nil => exact Iff.rfl
  | cons c cs ih =>
      cases ks with
      | nil => exact ⟨nofun, nofun⟩
      | cons k ks =>
          rw [List.all_cons, Bool.and_eq_true, Bool.not_eq_true'] at hk
          rw [List.map_cons, List.cons.injEq, List.cons.injEq,
            toLower_eq_iff hk.1, ih hk.2]

theorem lower_eq_iff {k : String} (hk : k.toList.all (!·.isAlpha) = true) :
    lower s = k ↔ s = k := by
  rw [← String.toList_inj, ← String.toList_inj, toList_lower,
    map_toLower_eq_iff hk]

theorem lower_beq {k : String} (hk : k.toList.all (!·.isAlpha) = true) :
    (lower s == k) = (s == k) := by
  rw [Bool.eq_iff_iff, beq_iff_eq, beq_iff_eq, lower_eq_iff s hk]

theorem lower_eq_empty : lower s = "" ↔ s = "" := lower_eq_iff s rfl

theorem lower_join (ss : List String) :
    lower (String.join ss) = String.join (ss.map lower) := by
  induction ss with
  | nil => rfl
  | cons s ss ih => rw [List.map_cons, String.join_cons, String.join_cons,
      lower_append, ih]

theorem lower_intercalate (sep : String) (ss : List String) :
    lower (sep.intercalate ss) = (lower sep).intercalate (ss.map lower) := by
  induction ss with
  | nil => rfl
  | cons s ss ih =>
      cases ss with
      | nil => rfl
      | cons t ss =>
          rw [List.map_cons, List.map_cons, String.intercalate_cons_cons,
            String.intercalate_cons_cons, lower_append, lower_append, ih,
            List.map_cons]

/-- A number is written without letters. -/
theorem lower_toString (n : Nat) : lower (toString n) = toString n := by
  have hdigits : ∀ c ∈ Nat.toDigits 10 n, c.toLower = c := by
    intro c hc
    have hdigit : c.isDigit = true :=
      Nat.isDigit_of_mem_toDigits (by omega) (by omega) hc
    refine (toLower_eq_iff ?_).2 rfl
    unfold Char.isDigit at hdigit
    rw [Bool.and_eq_true, decide_eq_true_iff, decide_eq_true_iff] at hdigit
    have hle : c.toNat ≤ 57 := hdigit.2
    unfold Char.isAlpha Char.isUpper Char.isLower
    rw [Bool.or_eq_false_iff, Bool.and_eq_false_iff, decide_eq_false_iff_not,
      decide_eq_false_iff_not]
    refine ⟨fun h => ?_, Or.inl fun h => ?_⟩
    · have : 65 ≤ c.toNat := h.1
      omega
    · have : 97 ≤ c.toNat := h
      omega
  show lower (String.ofList (Nat.toDigits 10 n)) = String.ofList _
  rw [ofList_lower]
  exact congrArg _ ((List.map_congr_left hdigits).trans (List.map_id _))

end Texts

-- ================================================================ cutting

section Cutting

variable (cs : List Char)

/-- Where a mark is no letter, a text is cut at it in the same place. -/
theorem cutFirst?_lower {sep : Char} (hsep : sep.isAlpha = false) :
    cutFirst? sep (cs.map Char.toLower)
      = (cutFirst? sep cs).map
        (Prod.map (List.map Char.toLower) (List.map Char.toLower)) := by
  induction cs with
  | nil => rfl
  | cons c cs ih =>
      rw [List.map_cons, cutFirst?, cutFirst?]
      by_cases hc : c = sep
      · rw [if_pos hc, if_pos ((toLower_eq_iff hsep).2 hc)]
        rfl
      · rw [if_neg hc, if_neg (mt (toLower_eq_iff hsep).1 hc), ih,
          Option.map_map, Option.map_map]
        rfl

theorem splitLast?_lower (s : String) :
    splitLast? '.' (lower s)
      = (splitLast? '.' s).map (Prod.map lower lower) := by
  unfold splitLast? cutLast?
  rw [toList_lower, ← List.map_reverse, cutFirst?_lower _ rfl]
  cases cutFirst? '.' s.toList.reverse with
  | none => rfl
  | some parts =>
      obtain ⟨after, before⟩ := parts
      show some (_, _) = some (_, _)
      rw [ofList_lower, ofList_lower, List.map_reverse, List.map_reverse]

theorem dropStart_lower {mark : Char} (hmark : mark.isAlpha = false) :
    dropStart mark (cs.map Char.toLower)
      = (dropStart mark cs).map Char.toLower := by
  cases cs with
  | nil => rfl
  | cons c cs =>
      rw [List.map_cons, dropStart, dropStart]
      by_cases hc : c = mark
      · rw [if_pos hc, if_pos ((toLower_eq_iff hmark).2 hc)]
      · rw [if_neg hc, if_neg (mt (toLower_eq_iff hmark).1 hc)]
        rfl

theorem dropEnd_lower {mark : Char} (hmark : mark.isAlpha = false) :
    dropEnd mark (cs.map Char.toLower)
      = (dropEnd mark cs).map Char.toLower := by
  unfold dropEnd
  rw [← List.map_reverse, dropStart_lower _ hmark, List.map_reverse]

theorem dropWhile_isBlank_lower :
    (cs.map Char.toLower).dropWhile isBlank
      = (cs.dropWhile isBlank).map Char.toLower := by
  rw [List.dropWhile_map, show isBlank ∘ Char.toLower = isBlank from
    funext isBlank_toLower]

theorem trimChars_lower :
    trimChars (cs.map Char.toLower) = (trimChars cs).map Char.toLower := by
  unfold trimChars trimEnd trimStart
  rw [dropWhile_isBlank_lower, ← List.map_reverse, dropWhile_isBlank_lower,
    List.map_reverse]

theorem trim_lower (s : String) : trim (lower s) = lower (trim s) := by
  unfold trim
  rw [toList_lower, trimChars_lower, ofList_lower]

end Cutting

-- ================================================================ numbers

section Numbers

theorem digitsFrom?_lower {base : Nat}
    (hbase : ∀ c : Char, digitValue? base c.toLower = digitValue? base c)
    (value : Nat) (cs : List Char) :
    digitsFrom? base value (cs.map Char.toLower)
      = digitsFrom? base value cs := by
  induction cs generalizing value with
  | nil => rfl
  | cons c cs ih =>
      rw [List.map_cons, digitsFrom?, digitsFrom?, hbase]
      simp only [ih]

/-- A number has the same value; the letters among its digits do not tell
capitals from small ones. -/
theorem natural?_lower {base : Nat} (hbase : base = 10 ∨ base = 16)
    (cs : List Char) : natural? base (cs.map Char.toLower) = natural? base cs := by
  unfold natural?
  rw [List.isEmpty_map, digitsFrom?_lower]
  rcases hbase with rfl | rfl
  · exact toLower_class (by decide)
  · exact toLower_class (by decide)

end Numbers

-- ========================================================== Unicode case

section Unicode

theorem nextIsCased_lower (cs : List Char) :
    nextIsCased (cs.map Char.toLower) = nextIsCased cs := by
  have hignorable : inRuns Table.caseIgnorable ∘ Char.toLower
      = inRuns Table.caseIgnorable :=
    funext (toLower_class (by decide +kernel))
  have hcased : ∀ c : Char,
      inRuns Table.cased c.toLower = inRuns Table.cased c :=
    toLower_class (by decide +kernel)
  unfold nextIsCased
  rw [List.dropWhile_map, hignorable]
  cases cs.dropWhile (inRuns Table.caseIgnorable) with
  | nil => rfl
  | cons c rest => exact hcased c

theorem lowercaseAfter_lower (before cs : List Char) :
    lowercaseAfter (before.map Char.toLower) (cs.map Char.toLower)
      = lowercaseAfter before cs := by
  have hchar : ∀ c : Char, lowercaseChar c.toLower = lowercaseChar c :=
    toLower_class (by decide +kernel)
  have hsigma : ∀ c : Char, (c.toLower = 'Σ') = (c = 'Σ') := fun c =>
    propext (toLower_eq_iff rfl)
  have hdotted : ∀ c : Char, (c.toLower = 'İ') = (c = 'İ') := fun c =>
    propext (toLower_eq_iff rfl)
  induction cs generalizing before with
  | nil => rfl
  | cons c cs ih =>
      rw [List.map_cons, lowercaseAfter, lowercaseAfter, ← List.map_cons, ih,
        nextIsCased_lower, nextIsCased_lower, hchar]
      simp only [hsigma, hdotted]

/-- Small ASCII letters make no difference to Unicode's lower case. -/
theorem lowercase_lower (s : String) : lowercase (lower s) = lowercase s := by
  unfold lowercase
  rw [toList_lower, ← lowercaseAfter_lower [] s.toList]
  rfl

end Unicode

end AblOutline.Text

namespace AblOutline

open Text

-- ================================================================= quotes

theorem Token.stripQuotes_lower (cs : List Char) :
    stripQuotes (cs.map Char.toLower)
      = (stripQuotes cs).map Char.toLower := by
  cases cs with
  | nil => rfl
  | cons q rest =>
      rw [List.map_cons, stripQuotes, stripQuotes]
      by_cases hq : q = '"' ∨ q = '\x27'
      · rw [if_pos hq, if_pos (hq.imp (toLower_eq_iff rfl).2
          (toLower_eq_iff rfl).2)]
        rcases hq with rfl | rfl <;> exact dropEnd_lower rest rfl
      · rw [if_neg hq, if_neg (mt (Or.imp (toLower_eq_iff rfl).1
          (toLower_eq_iff rfl).1) hq)]
        rfl

-- ============================================================== references

namespace Preprocess

theorem betweenBraces_lower (cs : List Char) :
    betweenBraces (cs.map Char.toLower)
      = (betweenBraces cs).map Char.toLower := by
  unfold betweenBraces
  rw [dropStart_lower _ rfl, dropEnd_lower _ rfl]

theorem referenceName_lower (s : String) :
    referenceName (lower s) = lower (referenceName s) := by
  unfold referenceName
  dsimp only
  rw [toList_lower, betweenBraces_lower, trimChars_lower,
    dropStart_lower _ rfl, trimChars_lower]
  by_cases h : trimChars (betweenBraces s.toList) = ['&', '*']
  · rw [if_pos h, if_pos ((map_toLower_eq_iff rfl).2 h)]
    rfl
  · rw [if_neg h, if_neg (mt (map_toLower_eq_iff rfl).1 h), ofList_lower]

end Preprocess

end AblOutline
