/-
Lists of groups as the converter reads them

* `Group.Writes.passes`: a group holds no comma outside quotation marks and brackets;
* `splitTopFrom_list`, `groups_eq`: **the groups of a list are parted** at the commas
  between them;
* `toXPath_eq`: **the path of a selector** is the union of the paths of its groups.
-/
import Locator.Proofs.Convert.Group

namespace Locator.Css

open Text

variable {s t : Text} {c : Char} {test : Test} {gs : List Group}

/-! ### What is written holds no comma on the outside -/

/-- The scanner that parts the groups of a selector. -/
abbrev commas : Scan := separators ','

lemma passes_name {a : Text} (ha : isWordName a = true) (k : ℕ) :
    commas.Passes ⟨k, none⟩ a ⟨k, none⟩ := passes_of_isInert (isInert_name ha) rfl

/-- A sign without a meaning passes. -/
lemma passes_sign (h : commas.keeps c = true) (hc : c ≠ ',') :
    commas.Passes .outside [c] .outside :=
  .plain (List.forall_mem_singleton.mpr ⟨h, fun he => absurd he hc⟩)

/-- What passes between square brackets passes with them. -/
lemma passes_bracket {u : Text} (h : commas.Passes ⟨1, none⟩ u ⟨1, none⟩) :
    commas.Passes .outside ('[' :: u ++ [']']) .outside :=
  ((Scan.Passes.opens (c := '[') rfl rfl (by decide)).append h).append
    (.closes (c := ']') (k := 0) rfl rfl rfl fun hc => absurd hc (by decide))

/-- A test passes. -/
lemma Test.Quotes.passes (h : test.Quotes s) (ht : test.isLegible = true) :
    commas.Passes .outside s .outside := by
  cases test with
  | id v =>
      obtain rfl : s = '#' :: v := h
      exact (passes_sign (c := '#') rfl (by decide)).append (passes_of_isInert (isInert_ident (s := v) ht) rfl)
  | classToken v =>
      obtain rfl : s = '.' :: v := h
      exact (passes_sign (c := '.') rfl (by decide)).append (passes_of_isInert (isInert_ident (s := v) ht) rfl)
  | present a =>
      obtain rfl : s = '[' :: a ++ [']'] := h
      exact passes_bracket (passes_name (a := a) ht 1)
  | compare a how v =>
      obtain ⟨q, hq, hv, rfl⟩ := h
      have ha : isWordName a = true := ht
      have hsign : commas.Passes ⟨1, none⟩ (sign how) ⟨1, none⟩ := by
        refine .plain ?_
        cases how <;> decide
      have hvalue : commas.Passes ⟨1, none⟩ (q :: v ++ [q]) ⟨1, none⟩ :=
        .literal hq hv (ne_of_isQuote hq rfl).symm
      exact passes_bracket ((passes_name ha 1).append (hsign.append hvalue))
  | nthOfType digits =>
      obtain rfl : s = ":nth-of-type(".toList ++ digits ++ [')'] := h
      simp only [isLegible, Bool.and_eq_true] at ht
      have hname : commas.Passes .outside ":nth-of-type".toList .outside := .plain (by decide)
      have hopen := hname.append (.opens (c := '(') rfl rfl (by decide))
      have hdigits := hopen.append (passes_of_isInert (isInert_digits ht.2) rfl)
      exact hdigits.append (.closes (c := ')') (k := 0) rfl rfl rfl fun hc =>
        absurd hc (by decide))

/-- A compound passes. -/
lemma Compound.Writes.passes {c : Compound} (h : c.Writes Test.Quotes s)
    (hc : c.isLegible = true) : commas.Passes .outside s .outside := by
  have htests : ∀ {ts : List Test} {us : List Text}, List.Forall₂ Test.Quotes ts us →
      (∀ t ∈ ts, t.isLegible = true) → commas.Passes .outside us.flatten .outside := by
    intro ts us h
    induction h with
    | nil => exact fun _ => .nil _
    | cons hu _ ih =>
        intro ht
        rw [List.forall_mem_cons] at ht
        exact (hu.passes ht.1).append (ih ht.2)
  obtain ⟨us, hus, hs⟩ := h
  have hall := htests hus (Compound.isLegible_tests hc)
  rcases hs with rfl | ⟨-, -, rfl⟩
  · refine Scan.Passes.append ?_ hall
    by_cases hstar : c.tag = ['*']
    · rw [hstar]
      exact passes_sign rfl (by decide)
    · exact passes_name (Compound.isLegible_tag hc hstar) 0
  · exact hall

/-- Blanks pass. -/
lemma AreBlanks.passes {bs : Text} (h : AreBlanks bs) : commas.Passes .outside bs .outside := by
  refine .plain fun c hc => ?_
  have hspace := h c hc
  have h1 : c ≠ '"' := ne_of_isCssSpace hspace rfl
  have h2 : c ≠ '\'' := ne_of_isCssSpace hspace rfl
  have h3 : c ≠ '[' := ne_of_isCssSpace hspace rfl
  have h4 : c ≠ '(' := ne_of_isCssSpace hspace rfl
  have h5 : c ≠ ']' := ne_of_isCssSpace hspace rfl
  have h6 : c ≠ ')' := ne_of_isCssSpace hspace rfl
  have h7 : c ≠ ',' := ne_of_isCssSpace hspace rfl
  exact ⟨by simp [Scan.keeps, separators, isQuote, opening, closing, h1, h2, h3, h4, h5, h6],
    fun hcomma => absurd hcomma h7⟩

/-- A combinator passes. -/
lemma Combinator.Writes.passes {how : Combinator} {js : Text} (h : how.Writes js) :
    commas.Passes .outside js .outside := by
  cases h with
  | descendant hb => exact hb.passes
  | child hb hb' => exact hb.passes.append ((passes_sign (c := '>') rfl (by decide)).append hb'.passes)

/-- Further compounds pass. -/
lemma RestWrites.passes {ss : List Step} (h : RestWrites Test.Quotes ss t)
    (hp : ∀ s ∈ ss, s.compound.isLegible = true) : commas.Passes .outside t .outside := by
  induction h with
  | nil => exact .nil _
  | cons hj hc _ ih =>
      rw [List.forall_mem_cons] at hp
      exact hj.passes.append ((hc.passes hp.1).append (ih hp.2))

/-- A group passes. -/
lemma Group.Writes.passes {g : Group} (h : g.Writes Test.Quotes s)
    (hp : ∀ c ∈ g.compounds, c.isLegible = true) : commas.Passes .outside s .outside := by
  obtain ⟨cs, t, hc, hs, rfl⟩ := h
  rw [Group.compounds, List.forall_mem_cons, List.forall_mem_map] at hp
  exact (hc.passes hp.1).append (hs.passes hp.2)

/-! ### The groups of a list -/

/-- A text of a group, perhaps between blanks. -/
def Group.IsPart (g : Group) (s : Text) : Prop :=
  ∃ before u behind, AreBlanks before ∧ g.Writes Test.Quotes u ∧ AreBlanks behind ∧
    s = before ++ u ++ behind

/-- **The groups of a list are parted** at the commas between them. -/
theorem splitTopFrom_list (h : ListWrites Test.Quotes gs t)
    (hp : ∀ g ∈ gs, ∀ c ∈ g.compounds, c.isLegible = true) {lead : Text} (hl : AreBlanks lead) :
    ∃ parts, splitTopFrom [','] 0 .outside (lead ++ t) = parts ∧
      List.Forall₂ Group.IsPart gs parts := by
  induction h generalizing lead with
  | @one g s bs hg hb =>
      have hpasses := (hl.passes.append (hg.passes (hp _ (by simp)))).append hb.passes
      have hsplit := splitTopFrom_passes hpasses (splitTopFrom_nil [','] .outside)
      refine ⟨[lead ++ s ++ bs], ?_, .cons ⟨lead, s, bs, hl, hg, hb, rfl⟩ .nil⟩
      simpa using hsplit
  | @cons g gs s before behind t hg hb hb' hs ih =>
      rw [List.forall_mem_cons] at hp
      obtain ⟨parts, hparts, hall⟩ := ih hp.2 hb'
      have hpasses := (hl.passes.append (hg.passes hp.1)).append hb.passes
      have hsplit := splitTopFrom_passes hpasses (splitTopFrom_sep rfl [] (behind ++ t))
      refine ⟨(lead ++ s ++ before) :: parts, ?_, .cons ⟨lead, s, before, hl, hg, hb, rfl⟩ hall⟩
      rw [hparts] at hsplit
      simpa using hsplit

/-- A part stripped of its blanks is the group. -/
lemma strip_of_isPart {g : Group} (h : g.IsPart s) (hp : ∀ c ∈ g.compounds, c.isLegible = true) :
    g.Writes Test.Quotes (strip s) ∧ (strip s).isEmpty = false := by
  obtain ⟨before, u, behind, hb, hu, hb', rfl⟩ := h
  have htrim := hu.isTrim hp
  rw [strip_of_isTrim htrim (fun c hc => isBlank_of_isCssSpace (hb c hc))
    fun c hc => isBlank_of_isCssSpace (hb' c hc)]
  exact ⟨hu, by simpa using htrim.ne_nil⟩

/-- **The groups of a list** are found, each as one of its texts. -/
theorem groups_eq (h : ListWrites Test.Quotes gs t)
    (hp : ∀ g ∈ gs, ∀ c ∈ g.compounds, c.isLegible = true) :
    List.Forall₂ (Group.Writes Test.Quotes) gs (groups t) := by
  obtain ⟨parts, hparts, hall⟩ := splitTopFrom_list h hp areBlanks_nil
  rw [groups, splitTop, ← List.nil_append t, hparts]
  clear h hparts
  induction hall with
  | nil => exact .nil
  | cons hs _ ih =>
      rw [List.forall_mem_cons] at hp
      obtain ⟨hwrites, hne⟩ := strip_of_isPart hs hp.1
      rw [List.map_cons, List.filter_cons_of_pos (by simp [hne])]
      exact .cons hwrites (ih hp.2)

/-- A list ends in a group and blanks. -/
lemma ListWrites.exists_trim (h : ListWrites Test.Quotes gs t)
    (hp : ∀ g ∈ gs, ∀ c ∈ g.compounds, c.isLegible = true) :
    ∃ u bs, ListWrites Test.Quotes gs u ∧ IsTrim u ∧ AreBlanks bs ∧ t = u ++ bs := by
  induction h with
  | @one g s bs hg hb =>
      have hone := ListWrites.one hg areBlanks_nil
      rw [List.append_nil] at hone
      exact ⟨s, bs, hone, hg.isTrim (hp _ (by simp)), hb, rfl⟩
  | @cons g gs s before behind t hg hb hb' hs ih =>
      rw [List.forall_mem_cons] at hp
      obtain ⟨u, bs, hu, htrim, hbs, rfl⟩ := ih hp.2
      have hall := (hg.isTrim hp.1).append (before ++ ',' :: behind) htrim
      exact ⟨_, bs, .cons hg hb hb' hu, by simpa using hall, hbs, by simp⟩

/-! ### Paths of selectors -/

/-- A text is the text of itself. -/
lemma textOrEmpty_text (s : Text) : (Value.text s).textOrEmpty = s := by
  cases s <;> rfl

/-- **The path of a selector** is the union of the paths of its groups, if their values hide
nothing. -/
theorem toXPath_eq (h : ListWrites Test.Quotes gs t)
    (hp : ∀ g ∈ gs, ∀ c ∈ g.compounds, c.isLegible = true) (hg : ∀ g ∈ gs, g.IsLevel)
    {bs : Text} (hb : AreBlanks bs) :
    toXPath (.text (bs ++ t)) = .ok (join " | ".toList (gs.map fun g => g.chain.toXPath)) := by
  obtain ⟨u, bs', hu, htrim, hb', rfl⟩ := h.exists_trim hp
  have hstrip : strip (bs ++ (u ++ bs')) = u := by
    rw [← List.append_assoc]
    exact strip_of_isTrim htrim (fun c hc => isBlank_of_isCssSpace (hb c hc))
      fun c hc => isBlank_of_isCssSpace (hb' c hc)
  have hne : gs ≠ [] := by
    rintro rfl
    cases hu
  have hpaths : ∀ {gs : List Group} {us : List Text}, List.Forall₂ (Group.Writes Test.Quotes) gs us →
      (∀ g ∈ gs, ∀ c ∈ g.compounds, c.isLegible = true) → (∀ g ∈ gs, g.IsLevel) →
      us.filterMap (fun u => (groupToXPath u).toOption) = gs.map fun g => g.chain.toXPath := by
    intro gs us hall
    induction hall with
    | nil => exact fun _ _ => rfl
    | @cons g u gs us hu _ ih =>
        intro hp hg
        rw [List.forall_mem_cons] at hp hg
        have hgroup : (groupToXPath u).toOption = some g.chain.toXPath := by
          rw [groupToXPath, readGroup_eq hu hp.1 hg.1]
          rfl
        rw [List.filterMap_cons, hgroup, ih hp.2 hg.2, List.map_cons]
  have hall := hpaths (groups_eq hu hp) hp hg
  obtain ⟨g, gs, rfl⟩ := List.exists_cons_of_ne_nil hne
  rw [toXPath, textOrEmpty_text, hstrip]
  simp [htrim.ne_nil, hall]

end Locator.Css
