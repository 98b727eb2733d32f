/-
Groups as the converter reads them

* `Compound.Writes.isTrim`, `Group.Writes.isTrim`: no blank stands at the ends of a
  compound and of a group;
* `compoundTextsFrom_compound`, `compoundTextsFrom_group`: **the compounds of a group are
  parted** at the combinators between them, unless brackets in values hide these;
* `Group.IsLevel`: a group whose values hide nothing, and `readGroup_eq`: such a group is
  read from each of its texts.
-/
import Locator.Proofs.Convert.Compound

namespace Locator

open Text

namespace Css

variable {s t u : Text} {c : Char} {test : Test} {us : List Text}

/-! ### The ends of compounds and groups -/

lemma isTrim_append (hs : IsTrim s) (ht : IsTrim t) : IsTrim (s ++ t) := by
  simpa using hs.append [] ht

lemma isTrim_sign (h : isBlank c = false) : IsTrim [c] :=
  isTrim_of_all (by simp) (by simpa using h)

lemma isTrim_ident (h : isPlainIdent s = true) : IsTrim s :=
  isTrim_of_isInert (isIdent_of_isPlainIdent h).ne_nil (isInert_ident h)

lemma Test.Quotes.isTrim (h : test.Quotes s) (ht : test.isLegible = true) : IsTrim s := by
  cases test with
  | id v =>
      obtain rfl : s = '#' :: v := h
      exact isTrim_append (isTrim_sign rfl) (isTrim_ident (s := v) ht)
  | classToken v =>
      obtain rfl : s = '.' :: v := h
      exact isTrim_append (isTrim_sign rfl) (isTrim_ident (s := v) ht)
  | present a =>
      obtain rfl : s = '[' :: a ++ [']'] := h
      exact (isTrim_sign (c := '[') rfl).append a (isTrim_sign rfl)
  | compare a how v =>
      obtain ⟨q, -, -, rfl⟩ := h
      exact (isTrim_sign (c := '[') rfl).append _ (isTrim_sign rfl)
  | nthOfType digits =>
      obtain rfl : s = ":nth-of-type(".toList ++ digits ++ [')'] := h
      exact (isTrim_sign (c := ':') rfl).append ("nth-of-type(".toList ++ digits) (isTrim_sign rfl)

lemma isTrim_tests {ts : List Test} (h : List.Forall₂ Test.Quotes ts us)
    (ht : ∀ t ∈ ts, t.isLegible = true) (hne : ts ≠ []) : IsTrim us.flatten := by
  induction h with
  | nil => exact absurd rfl hne
  | @cons t u ts us hu hus ih =>
      rw [List.forall_mem_cons] at ht
      have htrim := hu.isTrim ht.1
      by_cases hnil : ts = []
      · subst hnil
        cases hus
        simpa using htrim
      · exact isTrim_append htrim (ih ht.2 hnil)

lemma isTrim_tag {c : Compound} (hc : c.isLegible = true) : IsTrim c.tag := by
  by_cases hstar : c.tag = ['*']
  · rw [hstar]
    exact isTrim_sign rfl
  · exact isTrim_name (Compound.isLegible_tag hc hstar)

/-- No blank stands at the ends of a compound. -/
lemma Compound.Writes.isTrim {c : Compound} (h : c.Writes Test.Quotes s)
    (hc : c.isLegible = true) : IsTrim s := by
  obtain ⟨us, hus, hs⟩ := h
  have htests := Compound.isLegible_tests hc
  rcases hs with rfl | ⟨-, hne, rfl⟩
  · by_cases hnil : c.tests = []
    · rw [hnil] at hus
      cases hus
      simpa using isTrim_tag hc
    · exact isTrim_append (isTrim_tag hc) (isTrim_tests hus htests hnil)
  · exact isTrim_tests hus htests hne

/-- Further compounds end in one. -/
lemma RestWrites.isTrim {ss : List Step} (h : RestWrites Test.Quotes ss t) (hu : IsTrim u)
    (hp : ∀ s ∈ ss, s.compound.isLegible = true) : IsTrim (u ++ t) := by
  induction h generalizing u with
  | nil => simpa using hu
  | @cons _ _ js cs t hj hc hs ih =>
      rw [List.forall_mem_cons] at hp
      have h : IsTrim (u ++ js ++ cs ++ t) := ih (hu.append js (hc.isTrim hp.1)) hp.2
      simpa using h

/-- No blank stands at the ends of a group. -/
lemma Group.Writes.isTrim {g : Group} (h : g.Writes Test.Quotes s)
    (hp : ∀ c ∈ g.compounds, c.isLegible = true) : IsTrim s := by
  obtain ⟨cs, t, hc, hs, rfl⟩ := h
  rw [Group.compounds, List.forall_mem_cons, List.forall_mem_map] at hp
  exact hs.isTrim (hc.isTrim hp.1) hp.2

/-! ### The compounds of a group -/

section Collected

variable {p : Combinator} {k : ℕ} {w : Text}

/-- What is no bracket is w, and outside brackets what is no combinator either. -/
lemma compoundTextsFrom_plain
    (h : ∀ c ∈ u, c ≠ '[' ∧ c ≠ ']' ∧ (k = 0 → c ≠ '>' ∧ isCssSpace c = false)) (r : Text) :
    compoundTextsFrom p k w (u ++ r) =
      compoundTextsFrom p k (u.reverse ++ w) r := by
  induction u generalizing w with
  | nil => rfl
  | cons c u ih =>
      rw [List.forall_mem_cons] at h
      obtain ⟨⟨hopen, hclose, hout⟩, hu⟩ := h
      have hsign : (k == 0 && c == '>') = false := by
        rw [Bool.and_eq_false_imp]
        intro hd
        simpa using (hout (by simpa using hd)).1
      have hspace : (k == 0 && isCssSpace c) = false := by
        rw [Bool.and_eq_false_imp]
        intro hd
        exact (hout (by simpa using hd)).2
      have hc : compoundTextsFrom p k w (c :: (u ++ r)) =
          compoundTextsFrom p k (c :: w) (u ++ r) := by
        rw [compoundTextsFrom]
        simp only [beq_iff_eq, hopen, hclose, hsign, hspace, if_false, Bool.false_eq_true]
      rw [List.cons_append, hc, ih hu, List.reverse_cons, List.append_assoc,
        List.singleton_append]

/-- Inside brackets everything is collected up to a closing one, and opening ones are
counted. -/
lemma compoundTextsFrom_inside (h : ']' ∉ u) (r : Text) :
    compoundTextsFrom p (k + 1) w (u ++ r) =
      compoundTextsFrom p (k + u.count '[' + 1) (u.reverse ++ w) r := by
  induction u generalizing k w with
  | nil => rfl
  | cons c u ih =>
      rw [List.mem_cons, not_or] at h
      have hstep : compoundTextsFrom p (k + 1) w (c :: (u ++ r)) =
          compoundTextsFrom p (k + [c].count '[' + 1) (c :: w) (u ++ r) := by
        by_cases hopen : c = '['
        · subst hopen
          rfl
        · have hone := compoundTextsFrom_plain (p := p) (k := k + 1)
            (w := w) (u := [c]) (by simp [hopen, Ne.symm h.1]) (u ++ r)
          simpa [hopen] using hone
      have hcount : (c :: u).count '[' = [c].count '[' + u.count '[' := by
        rw [← List.count_append, List.singleton_append]
      rw [List.cons_append, hstep, ih h.2, hcount, List.reverse_cons, List.append_assoc,
        List.singleton_append, Nat.add_assoc k]

/-- What stands between square brackets is collected. -/
lemma compoundTextsFrom_bracket (h : ']' ∉ u) (r : Text) :
    compoundTextsFrom p k w ('[' :: u ++ [']'] ++ r) =
      compoundTextsFrom p (k + u.count '[') (('[' :: u ++ [']']).reverse ++ w) r := by
  have hopen : compoundTextsFrom p k w ('[' :: (u ++ ']' :: r)) =
      compoundTextsFrom p (k + 1) ('[' :: w) (u ++ ']' :: r) := rfl
  have hclose : ∀ k l, compoundTextsFrom p (k + 1) l (']' :: r) =
      compoundTextsFrom p k (']' :: l) r := fun _ _ => rfl
  have htext : '[' :: u ++ [']'] ++ r = '[' :: (u ++ ']' :: r) := by simp
  rw [htext, hopen, compoundTextsFrom_inside h, hclose]
  simp

/-- Inert characters are collected. -/
lemma compoundTextsFrom_inert (h : ∀ c ∈ u, isInert c = true ∨ c ∈ "#.:()*".toList) (r : Text) :
    compoundTextsFrom p k w (u ++ r) =
      compoundTextsFrom p k (u.reverse ++ w) r := by
  refine compoundTextsFrom_plain (fun c hc => ?_) r
  have hblank : ∀ {d : Char}, isBlank d = false → isCssSpace d = false := by
    intro d hd
    rw [Bool.eq_false_iff]
    intro hs
    simp [isBlank_of_isCssSpace hs] at hd
  rcases h c hc with hi | hm
  · exact ⟨ne_of_isInert hi rfl, ne_of_isInert hi rfl,
      fun _ => ⟨ne_of_isInert hi rfl, hblank (isBlank_of_isInert hi)⟩⟩
  · have hall : ∀ d ∈ "#.:()*".toList, d ≠ '[' ∧ d ≠ ']' ∧ d ≠ '>' ∧ isCssSpace d = false := by
      decide
    obtain ⟨h1, h2, h3, h4⟩ := hall c hm
    exact ⟨h1, h2, fun _ => ⟨h3, h4⟩⟩

/-- The number of opening brackets in the value of a test. -/
def Test.opens (t : Test) : ℕ := t.value.count '['

lemma count_bracket_name {a : Text} (ha : isWordName a = true) (r : Text) :
    (a ++ r).count '[' = r.count '[' := by
  rw [List.count_append, List.count_eq_zero.mpr (not_mem_name ha rfl), Nat.zero_add]

/-- A test is w, unless its value holds a closing bracket. -/
lemma compoundTextsFrom_test (h : test.Quotes s) (ht : test.isLegible = true)
    (hv : ']' ∉ test.value) (r : Text) :
    compoundTextsFrom p k w (s ++ r) =
      compoundTextsFrom p (k + test.opens) (s.reverse ++ w) r := by
  cases test with
  | id v =>
      obtain rfl : s = '#' :: v := h
      exact compoundTextsFrom_inert (List.forall_mem_cons.mpr
        ⟨.inr (by decide), fun c hc => .inl (isInert_ident (s := v) ht c hc)⟩) r
  | classToken v =>
      obtain rfl : s = '.' :: v := h
      exact compoundTextsFrom_inert (List.forall_mem_cons.mpr
        ⟨.inr (by decide), fun c hc => .inl (isInert_ident (s := v) ht c hc)⟩) r
  | present a =>
      obtain rfl : s = '[' :: a ++ [']'] := h
      have hcount : a.count '[' = 0 := List.count_eq_zero.mpr (not_mem_name (a := a) ht rfl)
      have := compoundTextsFrom_bracket (p := p) (k := k)
        (w := w) (not_mem_name (a := a) ht (c := ']') rfl) r
      rwa [hcount] at this
  | compare a how v =>
      obtain ⟨q, hq, -, rfl⟩ := h
      have ha : isWordName a = true := ht
      have hvalue : ']' ∉ v := hv
      have hopen : '[' ≠ q := (ne_of_isQuote hq rfl).symm
      have hclose : ']' ≠ q := (ne_of_isQuote hq rfl).symm
      have hbody : ']' ∉ a ++ (Test.sign how ++ (q :: v ++ [q])) := by
        simp [not_mem_name ha (c := ']') rfl, bracket_not_mem_sign, hvalue, hclose]
      have hsign : (Test.sign how).count '[' = 0 := by cases how <;> rfl
      have hmark : [q].count '[' = 0 := List.count_eq_zero.mpr (by simpa using hopen)
      have hcount : (a ++ (Test.sign how ++ (q :: v ++ [q]))).count '[' = v.count '[' := by
        rw [count_bracket_name ha, List.count_append, hsign, Nat.zero_add, List.cons_append,
          ← List.singleton_append, List.count_append, List.count_append, hmark, Nat.zero_add,
          Nat.add_zero]
      have := compoundTextsFrom_bracket (p := p) (k := k)
        (w := w) hbody r
      rwa [hcount] at this
  | nthOfType digits =>
      obtain rfl : s = ":nth-of-type(".toList ++ digits ++ [')'] := h
      simp only [Test.isLegible, Bool.and_eq_true] at ht
      have hname : ∀ c ∈ ":nth-of-type(".toList, isInert c = true ∨ c ∈ "#.:()*".toList := by
        decide
      refine compoundTextsFrom_inert (fun c hc => ?_) r
      rcases List.mem_append.mp hc with hc | hc
      · rcases List.mem_append.mp hc with hc | hc
        · exact hname c hc
        · exact .inl (isInert_digits ht.2 c hc)
      · exact .inr (by rw [List.mem_singleton.mp hc]; decide)

/-- Tests are collected one after the other. -/
lemma compoundTextsFrom_tests {ts : List Test} (h : List.Forall₂ Test.Quotes ts us)
    (ht : ∀ t ∈ ts, t.isLegible = true ∧ ']' ∉ t.value) (r : Text) :
    compoundTextsFrom p k w (us.flatten ++ r) =
      compoundTextsFrom p (k + (ts.map Test.opens).sum) (us.flatten.reverse ++ w)
        r := by
  induction h generalizing k w with
  | nil => rfl
  | cons hu _ ih =>
      rw [List.forall_mem_cons] at ht
      rw [List.flatten_cons, List.append_assoc, compoundTextsFrom_test hu ht.1.1 ht.1.2, ih ht.2]
      simp [Nat.add_assoc]

/-- The number of opening brackets in the values of a compound. -/
def Compound.opens (c : Compound) : ℕ := (c.tests.map Test.opens).sum

/-- **A compound is w**, as each of its texts, and the opening brackets in its values
are counted. -/
theorem compoundTextsFrom_compound {c : Compound} (h : c.Writes Test.Quotes s)
    (hc : c.isLegible = true) (hv : ∀ t ∈ c.tests, ']' ∉ t.value) (r : Text) :
    compoundTextsFrom p k w (s ++ r) =
      compoundTextsFrom p (k + c.opens) (s.reverse ++ w) r := by
  obtain ⟨us, hus, hs⟩ := h
  have htests : ∀ t ∈ c.tests, t.isLegible = true ∧ ']' ∉ t.value := fun t ht =>
    ⟨Compound.isLegible_tests hc t ht, hv t ht⟩
  rcases hs with rfl | ⟨-, -, rfl⟩
  · have htag : ∀ d ∈ c.tag, isInert d = true ∨ d ∈ "#.:()*".toList := by
      by_cases hstar : c.tag = ['*']
      · rw [hstar]
        decide
      · exact fun d hd => .inl (isInert_name (Compound.isLegible_tag hc hstar) d hd)
    rw [List.append_assoc, compoundTextsFrom_inert htag, compoundTextsFrom_tests hus htests,
      List.reverse_append, List.append_assoc]
    rfl
  · exact compoundTextsFrom_tests hus htests r

/-- What was collected of a compound is its text. -/
lemma flush_of_isTrim (p : Combinator) (hu : IsTrim u) :
    flush p u.reverse = [⟨p, u⟩] := by
  rw [flush, List.reverse_reverse, strip_eq_self hu]
  simp [hu.ne_nil]

lemma ne_of_isCssSpace {x : Char} (hc : isCssSpace c = true)
    (hx : isCssSpace x = false) : c ≠ x := by
  rintro rfl
  simp [hc] at hx

/-- A blank outside square brackets ends a compound, if there is one. -/
lemma compoundTextsFrom_space (p : Combinator) (w : Text) (hc : isCssSpace c = true)
    (r : Text) : compoundTextsFrom p 0 w (c :: r) =
      if w.isEmpty then compoundTextsFrom p 0 [] r
      else flush p w ++ compoundTextsFrom .descendant 0 [] r := by
  have h1 : c ≠ '[' := ne_of_isCssSpace hc rfl
  have h2 : c ≠ ']' := ne_of_isCssSpace hc rfl
  have h3 : c ≠ '>' := ne_of_isCssSpace hc rfl
  rw [compoundTextsFrom]
  simp [h1, h2, h3, hc]

/-- Blanks with nothing in front of them are passed over. -/
lemma compoundTextsFrom_blanks {bs : Text} (hb : AreBlanks bs) (r : Text) :
    compoundTextsFrom p 0 [] (bs ++ r) = compoundTextsFrom p 0 [] r := by
  induction bs with
  | nil => rfl
  | cons c bs ih =>
      rw [AreBlanks, List.forall_mem_cons] at hb
      rw [List.cons_append, compoundTextsFrom_space p [] hb.1]
      exact ih hb.2

/-- Blanks end the compound in front of them. -/
lemma compoundTextsFrom_descendant {bs : Text} (hu : IsTrim u)
    (hb : AreBlanks bs) (hne : bs ≠ []) (r : Text) :
    compoundTextsFrom p 0 u.reverse (bs ++ r) =
      ⟨p, u⟩ :: compoundTextsFrom .descendant 0 [] r := by
  obtain ⟨c, bs, rfl⟩ := List.exists_cons_of_ne_nil hne
  rw [AreBlanks, List.forall_mem_cons] at hb
  have hu' : u.reverse.isEmpty = false := by simpa using hu.ne_nil
  rw [List.cons_append, compoundTextsFrom_space p _ hb.1, if_neg (by simp [hu']),
    flush_of_isTrim p hu, compoundTextsFrom_blanks hb.2]
  rfl

/-- The sign for children, perhaps between blanks, ends the compound in front of it. -/
lemma compoundTextsFrom_child {before behind : Text} (hu : IsTrim u)
    (hb : AreBlanks before) (hb' : AreBlanks behind) (r : Text) :
    compoundTextsFrom p 0 u.reverse (before ++ '>' :: (behind ++ r)) =
      ⟨p, u⟩ :: compoundTextsFrom .child 0 [] r := by
  have hsign : ∀ p w, compoundTextsFrom p 0 w ('>' :: (behind ++ r)) =
      flush p w ++ compoundTextsFrom .child 0 [] r := by
    intro p w
    rw [compoundTextsFrom]
    simp [compoundTextsFrom_blanks hb']
  by_cases hne : before = []
  · rw [hne, List.nil_append, hsign, flush_of_isTrim p hu]
    rfl
  · rw [compoundTextsFrom_descendant hu hb hne, hsign]
    rfl

/-- A combinator ends the compound in front of it. -/
lemma compoundTextsFrom_join {how : Combinator} {js : Text} (hj : how.Writes js) (hu : IsTrim u)
    (r : Text) : compoundTextsFrom p 0 u.reverse (js ++ r) =
      ⟨p, u⟩ :: compoundTextsFrom how 0 [] r := by
  cases hj with
  | descendant hb hne => exact compoundTextsFrom_descendant hu hb hne r
  | child hb hb' =>
      rw [List.append_assoc, List.cons_append]
      exact compoundTextsFrom_child hu hb hb' r

end Collected

/-- A text of the compound of a step, and its combinator. -/
structure Step.Parted (s : Step) (x : CompoundText) : Prop where
  combinator : x.combinator = s.combinator
  text : s.compound.Writes Test.Quotes x.text

/-- **The compounds of a group are parted** at the combinators between them, unless a value
holds a closing bracket, or one of a compound in front an opening one. -/
theorem compoundTextsFrom_group {ss : List Step} (h : RestWrites Test.Quotes ss t) {c : Compound}
    (hu : c.Writes Test.Quotes u) (hp : ∀ x ∈ c :: ss.map Step.compound,
      x.isLegible = true ∧ ∀ t ∈ x.tests, ']' ∉ t.value)
    (ho : ∀ x ∈ (c :: ss.map Step.compound).dropLast, x.opens = 0) (pending : Combinator) :
    ∃ xs, compoundTextsFrom pending 0 [] (u ++ t) = ⟨pending, u⟩ :: xs ∧
      List.Forall₂ Step.Parted ss xs := by
  induction h generalizing c u pending with
  | nil =>
      rw [List.forall_mem_cons] at hp
      have hc := compoundTextsFrom_compound (p := pending) (k := 0) (w := [])
        hu hp.1.1 hp.1.2 []
      refine ⟨[], ?_, .nil⟩
      rw [hc, List.append_nil]
      exact flush_of_isTrim pending (hu.isTrim hp.1.1)
  | @cons s ss js cs t hj hc hs ih =>
      rw [List.forall_mem_cons] at hp
      rw [List.map_cons, List.dropLast_cons_cons, List.forall_mem_cons] at ho
      obtain ⟨xs, hxs, hparted⟩ := ih hc hp.2 ho.2 s.combinator
      have hfirst := compoundTextsFrom_compound (p := pending) (k := 0) (w := [])
        hu hp.1.1 hp.1.2 (js ++ (cs ++ t))
      rw [ho.1, List.append_nil] at hfirst
      have hnext := compoundTextsFrom_join (p := pending) hj (hu.isTrim hp.1.1) (cs ++ t)
      refine ⟨⟨s.combinator, cs⟩ :: xs, ?_, .cons ⟨rfl, hc⟩ hparted⟩
      rw [hfirst, hnext, hxs]

/-- The steps of a group are read. -/
lemma mapM_readCompound {ss : List Step} {xs : List CompoundText}
    (h : List.Forall₂ Step.Parted ss xs)
    (hp : ∀ s ∈ ss, s.compound.isLegible = true ∧ ∀ t ∈ s.compound.tests, ']' ∉ t.value) :
    (xs.mapM fun x => do return (⟨x.combinator, ← readCompound x.text⟩ : Step)) =
      (.ok ss : Except Unsupported (List Step)) := by
  induction h with
  | nil => rfl
  | cons hx _ ih =>
      rw [List.forall_mem_cons] at hp
      have hcompound := readCompound_eq hx.text hp.1.1 hp.1.2
      rw [List.mapM_cons, ih hp.2]
      simp only [hcompound, hx.combinator, ok_bind, pure_eq_ok]

/-- **A group whose values hide nothing**: none holds a closing bracket, and only those of
the last compound hold opening ones. -/
structure Group.IsLevel (g : Group) : Prop where
  closing : ∀ c ∈ g.compounds, ∀ t ∈ c.tests, ']' ∉ t.value
  opening : ∀ c ∈ g.compounds.dropLast, ∀ t ∈ c.tests, '[' ∉ t.value

instance (g : Group) : Decidable g.IsLevel :=
  decidable_of_iff ((∀ c ∈ g.compounds, ∀ t ∈ c.tests, ']' ∉ t.value) ∧
    ∀ c ∈ g.compounds.dropLast, ∀ t ∈ c.tests, '[' ∉ t.value)
    ⟨fun h => ⟨h.1, h.2⟩, fun h => ⟨h.closing, h.opening⟩⟩

lemma Compound.opens_eq_zero {c : Compound} : c.opens = 0 ↔ ∀ t ∈ c.tests, '[' ∉ t.value := by
  simp [opens, Test.opens, List.sum_eq_zero_iff, List.count_eq_zero]

/-- **A group whose values hide nothing is read** from each of its texts. -/
theorem readGroup_eq {g : Group} (h : g.Writes Test.Quotes s)
    (hp : ∀ c ∈ g.compounds, c.isLegible = true) (hg : g.IsLevel) :
    readGroup s = .ok g.chain := by
  obtain ⟨cs, t, hc, hs, rfl⟩ := h
  have hall : ∀ x ∈ g.first :: g.rest.map Step.compound,
      x.isLegible = true ∧ ∀ t ∈ x.tests, ']' ∉ t.value := fun x hx => ⟨hp x hx, hg.closing x hx⟩
  obtain ⟨xs, hxs, hparted⟩ := compoundTextsFrom_group hs hc hall
    (fun x hx => Compound.opens_eq_zero.mpr (hg.opening x hx)) .descendant
  have hsteps : List.Forall₂ Step.Parted g.chain (⟨.descendant, cs⟩ :: xs) :=
    .cons ⟨rfl, hc⟩ hparted
  rw [List.forall_mem_cons, List.forall_mem_map] at hall
  rw [readGroup, compoundTexts, hxs]
  exact mapM_readCompound hsteps (List.forall_mem_cons.mpr hall)

end Css

end Locator
