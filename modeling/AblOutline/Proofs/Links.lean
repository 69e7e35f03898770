/-
What a link covers. The token of a link is one of the text, and the link covers
the bytes of it; or it was put in for a reference, and the link begins where the
reference does (`parse_links`):

    RUN util.p.                     RUN {&t}.
        '----'                          '----'      t has the value util.p

The bytes of a token that was put in are those of the reference, but how far it
reaches is counted along its own text. So such a link ends with the reference
only if value and reference reach equally far (`link_past_reference`).
-/
import AblOutline.Links
import AblOutline.Proofs.Findings
import AblOutline.Proofs.Lexing.Tiling

namespace AblOutline

open Parse

-- ================================================================== places

/-- The line and column of the byte of that number in a text: the place that
the text before it leads to. -/
def Position.IsAt (text : String) (offset : Nat) (p : Position) : Prop :=
  ∃ before after, text = before ++ after ∧ before.utf8ByteSize = offset
    ∧ p = Position.origin.afterText before

section Places

variable {text : String} {offset : Nat} {p q : Position} {t : Token}

/-- A byte has one place only. -/
theorem Position.IsAt.unique (hp : p.IsAt text offset)
    (hq : q.IsAt text offset) : p = q := by
  obtain ⟨before, after, htext, hsize, rfl⟩ := hp
  obtain ⟨before', after', htext', hsize', rfl⟩ := hq
  have hbytes := congrArg String.toByteArray (htext.symm.trans htext')
  rw [String.toByteArray_append, String.toByteArray_append] at hbytes
  have hsame : before = before' :=
    String.toByteArray_inj.1 (ByteArray.append_inj_left hbytes (by
      rw [String.size_toByteArray, String.size_toByteArray, hsize, hsize']))
  rw [hsame]

/-- A token of a text covers the places of its bytes. -/
theorem span_isAt (ht : t ∈ tokenize text) :
    t.start.IsAt text t.range.start ∧ t.span.stop.IsAt text t.range.stop := by
  obtain ⟨before, after, hsplit⟩ := List.append_of_mem ht
  have hstands := tokenize_split hsplit
  have htext : text = joinText before ++ t.text ++ joinText after := by
    rw [← joinText_tokenize text, hsplit, joinText_append, joinText_cons,
      String.append_assoc]
  refine ⟨⟨joinText before, t.text ++ joinText after, ?_, ?_, hstands.start⟩,
    ⟨joinText before ++ t.text, joinText after, htext, ?_, hstands.stop⟩⟩
  · rw [← String.append_assoc]
    exact htext
  · rw [hstands.range]
  · rw [hstands.range]

end Places

-- =================================================================== links

namespace Link

variable {resolver : Resolver} {path : Option String} {i : Item} {l : Link}

/-- A link is made of an include directive or a `RUN` statement, and covers
what its token does. -/
theorem span_of_ofItem? (h : ofItem? resolver path i = some l) :
    l.span = i.token.span ∧ i.content.reportName ∈ ["include", "run"] := by
  unfold ofItem? at h
  split at h
  · rename_i hcontent
    cases h
    rw [hcontent]
    exact ⟨rfl, List.mem_cons_self⟩
  · obtain ⟨name, hname, h⟩ := Option.bind_eq_some_iff.1 h
    obtain ⟨target, -, h⟩ := Option.bind_eq_some_iff.1 h
    cases h
    unfold runName? at hname
    split at hname
    · rename_i hcontent
      rw [hcontent]
      exact ⟨rfl, List.mem_cons_of_mem _ List.mem_cons_self⟩
    · cases hname

end Link

/-- What a link covers of the text, where `t` is its token: the bytes of `t`, or
what begins with the reference that `t` stands for and reaches as far as the
text of `t` does. -/
structure Link.Covers (text : String) (l : Link) (t : Token) : Prop where
  start : l.span.start.IsAt text t.range.start
  stop : t ∈ tokenize text ∧ l.span.stop.IsAt text t.range.stop
    ∨ ∃ u ∈ tokenize text, u.kind = .reference ∧ StandsFor u t
      ∧ (l.span.stop.IsAt text t.range.stop
        ↔ u.start.afterText t.text = u.start.afterText u.text)

theorem Link.covers_of_readIn {text : String} {l : Link} {t : Token}
    (h : ReadIn text t) (hspan : l.span = t.span) : l.Covers text t := by
  cases h with
  | token ht =>
      obtain ⟨hstart, hstop⟩ := span_isAt ht
      refine ⟨?_, Or.inl ⟨ht, ?_⟩⟩
      · rw [hspan]
        exact hstart
      · rw [hspan]
        exact hstop
  | @value u hu hk hstands =>
      obtain ⟨hstart, hstop⟩ := span_isAt hu
      have hplace : l.span = ⟨u.start, u.start.afterText t.text⟩ := by
        rw [hspan, ← hstands.start]
        rfl
      refine ⟨?_, Or.inr ⟨u, hu, hk, hstands, ?_⟩⟩
      · rw [hplace, hstands.range]
        exact hstart
      · rw [hplace, hstands.range]
        refine ⟨fun h => h.unique hstop, fun h => ?_⟩
        show (u.start.afterText t.text).IsAt text u.range.stop
        rw [h]
        exact hstop

/-- Each link of a parse is that of an item of the text, and covers it: it
begins and ends where the bytes of the item's token do, but for the end of a
token that stands for a reference. -/
theorem parse_links {steps : Nat} {env : Environment} {cache : TokenCache}
    {text : String} {path : Option String} {r : Result}
    (h : parse? steps env cache text path = some r) (resolver : Resolver) :
    ∀ l ∈ r.file.links resolver, ∃ i ∈ r.file.items,
      i.owner = 0 ∧ Link.ofItem? resolver r.file.path i = some l
        ∧ l.Covers text i.token := by
  intro l hl
  obtain ⟨i, hi, hitem⟩ := List.mem_filterMap.1 hl
  obtain ⟨hi, howner⟩ := List.mem_filter.1 hi
  have hi := Array.mem_toList_iff.1 hi
  have hzero : i.owner = 0 := eq_of_beq howner
  obtain ⟨hspan, hsort⟩ := Link.span_of_ofItem? hitem
  have hfile : i.content.reportName ≠ "file" := by
    intro hfile
    rw [hfile] at hsort
    revert hsort
    decide
  have hread := ((parse_found h hi).1 hfile).own hzero
  exact ⟨i, hi, hzero, hitem, Link.covers_of_readIn hread hspan⟩

/-- A link for an include directive, one for a word, and one for a reference
whose value is as long as the reference. -/
theorem parse_links_procedures :
    let text := "\x7ba.i\x7d\r\nRUN p.w.\n&SCOPED-DEFINE t q.pp\nRUN \x7b&t\x7d.\n"
    let resolver := Resolver.ofFiles
      [("a.i", some "RUN b.p.\n"), ("b.p", none), ("p.w", none), ("q.pp", none)]
      false
    ∃ r, parse? 80 { resolver } {} text none = some r
      ∧ (r.file.links resolver).map (·.span)
        = [⟨⟨0, 0⟩, ⟨0, 5⟩⟩, ⟨⟨1, 4⟩, ⟨1, 7⟩⟩, ⟨⟨3, 4⟩, ⟨3, 8⟩⟩]
      ∧ ∀ l ∈ r.file.links resolver, ∃ i ∈ r.file.items,
        i.owner = 0 ∧ Link.ofItem? resolver r.file.path i = some l
          ∧ l.Covers text i.token := by
  intro text resolver
  have hrun : (parse? 80 { resolver } {} text none).map
      (fun r => (r.file.links resolver).map (·.span))
      = some [⟨⟨0, 0⟩, ⟨0, 5⟩⟩, ⟨⟨1, 4⟩, ⟨1, 7⟩⟩, ⟨⟨3, 4⟩, ⟨3, 8⟩⟩] := by
    decide +kernel
  obtain ⟨r, hr, hlinks⟩ := Option.map_eq_some_iff.1 hrun
  exact ⟨r, hr, hlinks, parse_links hr resolver⟩

/-- The name of a file in the place of a shorter reference: the link goes on
past the reference. -/
theorem link_past_reference :
    let text := "&SCOPED-DEFINE t util.p\nRUN \x7b&t\x7d.\n"
    let resolver := Resolver.ofFiles [("util.p", some "")] false
    ∃ r, parse? 80 { resolver } {} text none = some r
      ∧ ∃ l ∈ r.file.links resolver, ∃ i ∈ r.file.items,
        i.owner = 0 ∧ Link.ofItem? resolver r.file.path i = some l
          ∧ l.span = ⟨⟨1, 4⟩, ⟨1, 10⟩⟩
          ∧ ¬ l.span.stop.IsAt text i.token.range.stop := by
  intro text resolver
  let link : Link := ⟨⟨⟨1, 4⟩, ⟨1, 10⟩⟩, "util.p", "Open procedure"⟩
  have hrun : (parse? 80 { resolver } {} text none).map (fun r =>
      r.file.items.toList.filterMap fun i =>
        (Link.ofItem? resolver r.file.path i).map (i.owner, i.token.range, ·))
      = some [(0, ⟨28, 32⟩, link)] := by
    decide +kernel
  obtain ⟨r, hr, hlinks⟩ := Option.map_eq_some_iff.1 hrun
  obtain ⟨i, hi, hitem⟩ := List.mem_filterMap.1
    (hlinks ▸ List.mem_singleton_self (0, (⟨28, 32⟩ : ByteRange), link))
  obtain ⟨l, hl, he⟩ := Option.map_eq_some_iff.1 hitem
  obtain ⟨howner, hrange, rfl⟩ : i.owner = 0 ∧ i.token.range = ⟨28, 32⟩
      ∧ l = link := by
    simpa using he
  refine ⟨r, hr, link, ?_, i, Array.mem_toList_iff.1 hi, howner, hl, rfl, ?_⟩
  · exact List.mem_filterMap.2
      ⟨i, List.mem_filter.2 ⟨hi, beq_iff_eq.2 howner⟩, hl⟩
  · rw [hrange]
    intro hstop
    -- the reference ends in column eight
    have hend : (⟨1, 8⟩ : Position).IsAt text 32 :=
      ⟨"&SCOPED-DEFINE t util.p\nRUN \x7b&t\x7d", ".\n", rfl, by decide +kernel,
        by decide +kernel⟩
    exact absurd (hstop.unique hend) (by decide)

end AblOutline
