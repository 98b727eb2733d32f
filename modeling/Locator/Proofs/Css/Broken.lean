/-
Selectors with line breaks in their values

* `Test.isBroken`, `Compound.Writes.isBroken`, `ListWrites.isBroken`: what is printed stops in front
  of its end if a value holds a line break;
* `readAll_of_writes_iff`: **what is printed is read** exactly if no value holds a line break;
* `isUnbroken_canonical`: nothing else holds one in a canonical text.
-/
import Locator.Proofs.Css.Canonical
import Locator.Proofs.Css.Stop

namespace Locator.Css

open Text

variable {t : Test} {ts : List Test} {c : Compound} {g : Group} {gs : List Group} {rest s : Text}

/-! ### What stops -/

/-- A test stops at a line break in its value. -/
lemma Test.isBroken (ht : t.isLegible = true) (hv : ¬ ∀ c ∈ t.value, isBreak c = false)
    (rest : Text) : IsBroken (t.toCss ++ rest) := by
  cases t with
  | compare a how v =>
      have hopen := spells_opening (isIdent_of_isWordName (s := a) ht) how
        ('"' :: (escape v ++ (['"'] ++ ([']'] ++ rest))))
      have hstop := hopen.isBroken (isBroken_string hv _)
      rw [toCss_compare]
      simpa only [List.append_assoc, List.cons_append] using hstop
  | _ => exact absurd (by simp [value]) hv

/-- Tests stop at the first line break in a value. -/
lemma isBroken_tests (h : ∀ t ∈ ts, t.isLegible = true)
    (hv : ¬ ∀ t ∈ ts, ∀ c ∈ t.value, isBreak c = false) (hr : EndsIdent rest) :
    IsBroken (ts.flatMap Test.toCss ++ rest) := by
  induction ts with
  | nil => simp at hv
  | cons t ts ih =>
      rw [List.forall_mem_cons] at h hv
      rw [List.flatMap_cons, List.append_assoc]
      by_cases hfirst : ∀ c ∈ t.value, isBreak c = false
      · exact (Test.spells h.1 hfirst (endsIdent_tests ts hr)).isBroken
          (ih h.2 fun hmore => hv ⟨hfirst, hmore⟩)
      · exact Test.isBroken h.1 hfirst _

/-- A compound stops at a line break in a value. -/
lemma Compound.Writes.isBroken (h : c.Writes Test.Escapes s) (hc : c.isLegible = true)
    (hb : c.isUnbroken = false) (hr : EndsIdent rest) : IsBroken (s ++ rest) := by
  have hv : ¬ ∀ t ∈ c.tests, ∀ x ∈ t.value, isBreak x = false := fun hv => by
    have hall : c.isUnbroken = true := by
      simpa only [isUnbroken, List.all_eq_true, Bool.not_eq_true'] using hv
    rw [hb] at hall
    cases hall
  have htests := isBroken_tests (Compound.isLegible_tests hc) hv hr
  rcases Compound.writes_escapes h with rfl | ⟨-, -, rfl⟩
  · rw [List.append_assoc]
    exact (Compound.spells_tag hc (endsIdent_tests c.tests hr)).isBroken htests
  · exact htests

/-- Further compounds stop at a line break in a value. -/
lemma RestWrites.isBroken {ss : List Step} (h : RestWrites Test.Escapes ss s)
    (hp : ∀ s ∈ ss, s.compound.isLegible = true)
    (hb : ¬ ∀ s ∈ ss, s.compound.isUnbroken = true) (hr : EndsIdent rest) :
    IsBroken (s ++ rest) := by
  induction h with
  | nil => simp at hb
  | @cons s ss js cs t hj hc hs ih =>
      rw [List.forall_mem_cons] at hp hb
      have hstart := ((hc.startsText hp.1).append t).isCssSpace rest
      obtain ⟨ks, -, hjoin⟩ := hj.spells hstart
      rw [List.append_assoc]
      refine hjoin.isBroken ?_
      rw [List.append_assoc]
      by_cases hfirst : s.compound.isUnbroken = true
      · obtain ⟨ms, -, hcompound⟩ := hc.spells hp.1 hfirst (hs.endsIdent hr)
        exact hcompound.isBroken (ih hp.2 fun hmore => hb ⟨hfirst, hmore⟩)
      · exact hc.isBroken hp.1 (Bool.eq_false_iff.mpr hfirst) (hs.endsIdent hr)

/-- A group stops at a line break in a value. -/
lemma Group.Writes.isBroken (h : g.Writes Test.Escapes s)
    (hp : ∀ c ∈ g.compounds, c.isLegible = true)
    (hb : ¬ ∀ c ∈ g.compounds, c.isUnbroken = true) (hr : EndsIdent rest) :
    IsBroken (s ++ rest) := by
  obtain ⟨cs, t, hc, hs, rfl⟩ := h
  rw [Group.compounds, List.forall_mem_cons, List.forall_mem_map] at hp hb
  rw [List.append_assoc]
  by_cases hfirst : g.first.isUnbroken = true
  · obtain ⟨ms, -, hcompound⟩ := hc.spells hp.1 hfirst (hs.endsIdent hr)
    exact hcompound.isBroken (hs.isBroken hp.2 (fun hmore => hb ⟨hfirst, hmore⟩) hr)
  · exact hc.isBroken hp.1 (Bool.eq_false_iff.mpr hfirst) (hs.endsIdent hr)

/-- **Groups with commas between them** stop at a line break in a value. -/
theorem ListWrites.isBroken (h : ListWrites Test.Escapes gs s)
    (hp : ∀ g ∈ gs, ∀ c ∈ g.compounds, c.isLegible = true)
    (hb : ¬ ∀ g ∈ gs, ∀ c ∈ g.compounds, c.isUnbroken = true) : IsBroken s := by
  have hnil : EndsIdent [] := by
    rintro _ ⟨⟩
  induction h with
  | @one g s bs hg hbs =>
      have hends : EndsIdent bs := by simpa using hbs.endsIdent fun _ => hnil
      exact hg.isBroken (hp g (by simp)) (by simpa using hb) hends
  | @cons g gs s before behind t hg hbefore hbehind hs ih =>
      rw [List.forall_mem_cons] at hp hb
      have hends : EndsIdent (before ++ ',' :: (behind ++ t)) :=
        hbefore.endsIdent fun _ => endsIdent_cons ',' _ rfl (by decide)
      by_cases hfirst : ∀ c ∈ g.compounds, c.isUnbroken = true
      · obtain ⟨ls, -, hspells⟩ := hg.spells (fun c hc => ⟨hp.1 c hc, hfirst c hc⟩) hends
        have hsign : ∀ c ∈ (',' :: (behind ++ t)).head?, isCssSpace c = false := by
          rintro _ ⟨rfl⟩
          rfl
        obtain ⟨b, hblanks⟩ := hbefore.spells hsign
        have hcomma : Spells [','] [(.delim, [','])] (behind ++ t) := .of_scans (scans_sign (by decide) _)
        have hstart : ∀ c ∈ t.head?, isCssSpace c = false := by
          simpa using (hs.startsText hp.2).isCssSpace []
        obtain ⟨b', hblanks'⟩ := hbehind.spells hstart
        have hmore := ih hp.2 fun hall => hb ⟨hfirst, hall⟩
        exact hspells.isBroken (hblanks.isBroken (hcomma.isBroken (hblanks'.isBroken hmore)))
      · exact hg.isBroken hp.1 hfirst hends

/-- **What is printed is read** exactly if no value holds a line break. -/
theorem readAll_of_writes_iff {bs : Text} (hbs : AreBlanks bs) (h : ListWrites Test.Escapes gs s)
    (hp : ∀ g ∈ gs, ∀ c ∈ g.compounds, c.isLegible = true) :
    (∃ xs, Selector.readAll (bs ++ s) = .ok xs) ↔
      ∀ g ∈ gs, ∀ c ∈ g.compounds, c.isUnbroken = true := by
  constructor
  · rintro ⟨xs, hread⟩
    by_contra hb
    have hstart : ∀ c ∈ s.head?, isCssSpace c = false := by
      simpa using (h.startsText hp).isCssSpace []
    obtain ⟨b, hblanks⟩ := hbs.spells hstart
    obtain ⟨e, he⟩ := readAll_of_isBroken (hblanks.isBroken (h.isBroken hp hb))
    rw [hread] at he
    cases he
  · intro hb
    obtain ⟨xs, -, hread⟩ := readAll_of_writes hbs h fun g hg c hc => ⟨hp g hg c hc, hb g hg c hc⟩
    exact ⟨_, hread⟩

/-! ### Line breaks in canonical texts -/

/-- Is there no line break in a text? -/
def isUnbroken (s : Text) : Bool := s.all fun c => !isBreak c

@[simp]
lemma isUnbroken_append (s t : Text) : isUnbroken (s ++ t) = (isUnbroken s && isUnbroken t) :=
  List.all_append

@[simp]
lemma isUnbroken_cons (c : Char) (s : Text) : isUnbroken (c :: s) = (!isBreak c && isUnbroken s) :=
  List.all_cons

@[simp]
lemma isUnbroken_nil : isUnbroken [] = true := rfl

lemma isUnbroken_flatMap {α : Type} (f : α → Text) (l : List α) :
    isUnbroken (l.flatMap f) = l.all fun x => isUnbroken (f x) := by
  induction l with
  | nil => rfl
  | cons x l ih => rw [List.flatMap_cons, isUnbroken_append, ih, List.all_cons]

/-- Names hold no line breaks. -/
lemma isUnbroken_of_isNameChar {s : Text} (h : ∀ c ∈ s, isNameChar c = true) :
    isUnbroken s = true := by
  refine List.all_eq_true.mpr fun c hc => ?_
  rw [Bool.not_eq_true', Bool.eq_false_iff]
  intro hbreak
  have hname := h c hc
  simp only [isBreak, Bool.or_eq_true, beq_iff_eq] at hbreak
  rcases hbreak with (rfl | rfl) | rfl <;> exact absurd hname (by decide)

/-- Escapes bring no line breaks in. -/
lemma isUnbroken_escape (v : Text) : isUnbroken (escape v) = isUnbroken v := by
  have hback : isBreak '\\' = false := rfl
  rw [escape, isUnbroken_flatMap, isUnbroken]
  refine congrArg (List.all v) (funext fun c => ?_)
  split_ifs <;> simp [hback]

/-- A test holds the line breaks of its value alone. -/
lemma Test.isUnbroken_toCss (h : t.isLegible = true) : isUnbroken t.toCss = isUnbroken t.value := by
  have hopen : isUnbroken ['['] = true := rfl
  have hclose : isUnbroken [']'] = true := rfl
  cases t with
  | id v =>
      have hv := isUnbroken_of_isNameChar (isIdent_of_isPlainIdent (s := v) h).chars
      exact hv
  | classToken v =>
      have hv := isUnbroken_of_isNameChar (isIdent_of_isPlainIdent (s := v) h).chars
      exact hv
  | present a =>
      have ha := isUnbroken_of_isNameChar (isIdent_of_isWordName (s := a) h).chars
      have htext : (Test.present a).toCss = ['['] ++ (a ++ [']']) := rfl
      rw [htext, isUnbroken_append, isUnbroken_append, ha, hopen, hclose]
      rfl
  | compare a how v =>
      have ha := isUnbroken_of_isNameChar (isIdent_of_isWordName (s := a) h).chars
      have hsign : isUnbroken (sign how) = true := by cases how <;> rfl
      have hvalue : isUnbroken ('"' :: escape v ++ ['"'] ++ [']']) = isUnbroken v := by
        have hmark : isBreak '"' = false := rfl
        rw [isUnbroken_append, isUnbroken_append, isUnbroken_cons, isUnbroken_escape, hclose, hmark]
        simp [hmark]
      rw [toCss_compare, isUnbroken_append, isUnbroken_append, isUnbroken_append, ha, hsign, hopen,
        hvalue]
      rfl
  | nthOfType digits =>
      simp only [isLegible, Bool.and_eq_true, List.all_eq_true] at h
      have hd := isUnbroken_of_isNameChar fun c hc => isNameChar_of_isDigit (h.2 c hc)
      have htext : (Test.nthOfType digits).toCss = ":nth-of-type(".toList ++ (digits ++ [')']) := by
        rw [← List.append_assoc]
        rfl
      have hfront : isUnbroken ":nth-of-type(".toList = true := rfl
      have hbehind : isUnbroken [')'] = true := rfl
      rw [htext, isUnbroken_append, isUnbroken_append, hd, hfront, hbehind]
      rfl

/-- A compound holds the line breaks of its values alone. -/
lemma Compound.isUnbroken_toCss (h : c.isLegible = true) :
    Css.isUnbroken c.toCss = c.isUnbroken := by
  have htests : Css.isUnbroken (c.tests.flatMap Test.toCss) = c.isUnbroken := by
    rw [isUnbroken_flatMap, isUnbroken, Bool.eq_iff_iff, List.all_eq_true, List.all_eq_true]
    exact forall₂_congr fun t ht => by
      rw [Test.isUnbroken_toCss (Compound.isLegible_tests h t ht)]
      rfl
  by_cases hstar : c.tag = ['*']
  · rw [Compound.toCss_of_star hstar]
    split_ifs with hts
    · simp [isUnbroken, hts, Css.isUnbroken]
      rfl
    · exact htests
  · have hname := isIdent_of_isWordName (Compound.isLegible_tag h hstar)
    rw [Compound.toCss_of_name hname.ne_nil hstar, isUnbroken_append, htests,
      isUnbroken_of_isNameChar hname.chars, Bool.true_and]

/-- A group holds the line breaks of its values alone. -/
lemma Group.isUnbroken_toCss (h : ∀ c ∈ g.compounds, c.isLegible = true) :
    isUnbroken g.chain.toCss = g.compounds.all Compound.isUnbroken := by
  have hglue : ∀ how, isUnbroken (Chain.glue how) = true := fun how => by cases how <;> rfl
  rw [Group.compounds, List.forall_mem_cons, List.forall_mem_map] at h
  have hrest : (g.rest.all fun s => isUnbroken (Chain.glue s.combinator ++ s.compound.toCss)) =
      g.rest.all fun s => s.compound.isUnbroken := by
    rw [Bool.eq_iff_iff, List.all_eq_true, List.all_eq_true]
    exact forall₂_congr fun s hs => by
      rw [isUnbroken_append, hglue, Bool.true_and, Compound.isUnbroken_toCss (h.2 s hs)]
  have htext : g.chain.toCss = g.first.toCss ++
      g.rest.flatMap fun s => Chain.glue s.combinator ++ s.compound.toCss := rfl
  rw [htext, isUnbroken_append, Compound.isUnbroken_toCss h.1, isUnbroken_flatMap, hrest,
    Group.compounds, List.all_cons, List.all_map]
  rfl

/-- **A canonical text** holds the line breaks of its values alone. -/
lemma isUnbroken_canonical (h : ∀ g ∈ gs, ∀ c ∈ g.compounds, c.isLegible = true) :
    isUnbroken (canonical gs) = gs.all fun g => g.compounds.all Compound.isUnbroken := by
  have hcomma : isUnbroken ", ".toList = true := rfl
  have hjoin : ∀ ss : List Text, isUnbroken (join ", ".toList ss) = ss.all isUnbroken := by
    intro ss
    cases ss with
    | nil => rfl
    | cons s ss =>
        rw [join_cons, isUnbroken_append, isUnbroken_flatMap, List.all_cons]
        simp only [isUnbroken_append, hcomma, Bool.true_and]
  rw [canonical, hjoin, List.all_map, Bool.eq_iff_iff, List.all_eq_true, List.all_eq_true]
  exact forall₂_congr fun g hg => by rw [← Group.isUnbroken_toCss (h g hg)]; rfl

/-- **The canonical text of groups is read** exactly if it holds no line break. -/
theorem readAll_canonical_iff (hne : gs ≠ []) (htag : ∀ g ∈ gs, ∀ c ∈ g.compounds, c.tag ≠ [])
    (h : ∀ g ∈ gs, ∀ c ∈ g.compounds, c.isLegible = true) :
    (∃ xs, Selector.readAll (canonical gs) = .ok xs) ↔ isUnbroken (canonical gs) = true := by
  have hread := readAll_of_writes_iff areBlanks_nil (writes_canonical hne htag) h
  rw [List.nil_append] at hread
  rw [hread, isUnbroken_canonical h]
  simp only [List.all_eq_true]

end Locator.Css
