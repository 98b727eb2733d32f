/-
The groups that the converter rejects

* `Parts`: how a group is parted at the signs and blanks outside square brackets, and
  `compoundTexts_eq_iff`: so and in no other way;
* `Chain.Accepts`, `groupToXPath_eq_ok_iff`: **the groups that have a path**, and all
  others are rejected;
* `Test.Derives`, `Group.isGroupChar_of_derives`: the groups of the grammar, and the
  characters that stand in them outside square brackets;
* `groupToXPath_stray`: groups outside the grammar that have a path.
-/
import Locator.Proofs.Convert.Accepted

namespace Locator.Css

open Text

variable {s u v w : Text} {c : Char} {p : Combinator} {d e : ℕ} {ts : List CompoundText}

/-! ### Where a group is parted -/

/-- How many square brackets are open behind a text, with `d` of them in front of it; there is
no answer where a sign or blank outside brackets parts the text. -/
def openBehind? : ℕ → Text → Option ℕ
  | d, [] => some d
  | d, c :: r =>
    if c = '[' then openBehind? (d + 1) r
    else if c = ']' then openBehind? (d - 1) r
    else if d = 0 ∧ (c = '>' ∨ isCssSpace c = true) then none
    else openBehind? d r

lemma openBehind?_append (d : ℕ) (u v : Text) :
    openBehind? d (u ++ v) = (openBehind? d u).bind fun e => openBehind? e v := by
  induction u generalizing d with
  | nil => rfl
  | cons c u ih =>
      rw [List.cons_append, openBehind?, openBehind?]
      split_ifs
      · exact ih _
      · exact ih _
      · rfl
      · exact ih _

/-- A text that nothing parts is collected. -/
lemma compoundTextsFrom_run (h : openBehind? d u = some e) (collected rest : Text) :
    compoundTextsFrom p d collected (u ++ rest) =
      compoundTextsFrom p e (u.reverse ++ collected) rest := by
  induction u generalizing d collected with
  | nil =>
      obtain rfl := Option.some.inj h
      rfl
  | cons c u ih =>
      rw [openBehind?] at h
      rw [List.cons_append, compoundTextsFrom, List.reverse_cons, List.append_assoc,
        List.singleton_append]
      split_ifs at h with hopen hclose hparts
      · rw [if_pos (by simpa using hopen)]
        exact ih h _
      · rw [if_neg (by simpa using hopen), if_pos (by simpa using hclose)]
        exact ih h _
      · rw [not_and_or, not_or, Bool.not_eq_true] at hparts
        rw [if_neg (by simpa using hopen), if_neg (by simpa using hclose), if_neg, if_neg]
        · exact ih h _
        · rcases hparts with hd | ⟨-, hspace⟩ <;> simp [*]
        · rcases hparts with hd | ⟨hsign, -⟩ <;> simp [*]

/-- **How a group is parted**, with `p` in front of it: at each sign and at each blank outside
square brackets. The sign makes what stands behind it a child, and a blank behind something
a descendant. What stands between two of them is left out if it is blank. -/
inductive Parts : Combinator → Text → List CompoundText → Prop
  | last {p : Combinator} {u : Text} {e : ℕ} (hu : openBehind? 0 u = some e) :
      Parts p u (flush p u.reverse)
  | child {p : Combinator} {u w : Text} {ts : List CompoundText}
      (hu : openBehind? 0 u = some 0) (hw : Parts .child w ts) :
      Parts p (u ++ '>' :: w) (flush p u.reverse ++ ts)
  | blank {p : Combinator} {u w : Text} {c : Char} {ts : List CompoundText}
      (hu : openBehind? 0 u = some 0) (hc : isCssSpace c = true)
      (hw : Parts (if u.isEmpty then p else .descendant) w ts) :
      Parts p (u ++ c :: w) (flush p u.reverse ++ ts)

lemma Parts.compoundTextsFrom_eq (h : Parts p s ts) : compoundTextsFrom p 0 [] s = ts := by
  induction h with
  | @last p u e hu =>
      have hrun := compoundTextsFrom_run (p := p) hu [] []
      rw [List.append_nil, List.append_nil] at hrun
      exact hrun
  | @child p u w ts hu hw ih =>
      rw [compoundTextsFrom_run hu, List.append_nil, ← ih]
      rfl
  | @blank p u w c ts hu hc hw ih =>
      rw [compoundTextsFrom_run hu, List.append_nil, compoundTextsFrom_space p _ hc, ← ih,
        List.isEmpty_reverse]
      by_cases hempty : u.isEmpty = true
      · obtain rfl := List.isEmpty_iff.mp hempty
        rfl
      · simp only [hempty, if_false, Bool.false_eq_true]

/-- A group is parted in some way, whatever was collected in front of it. -/
lemma parts_compoundTextsFrom (hd : openBehind? 0 v.reverse = some d) (s : Text) :
    Parts p (v.reverse ++ s) (compoundTextsFrom p d v s) := by
  induction s generalizing p d v with
  | nil =>
      have hlast := Parts.last (p := p) hd
      rwa [List.reverse_reverse, ← List.append_nil v.reverse] at hlast
  | cons c s ih =>
      have hcollect : ∀ {e}, openBehind? d [c] = some e →
          Parts p (v.reverse ++ c :: s) (compoundTextsFrom p e (c :: v) s) := by
        intro e he
        have hv : openBehind? 0 (c :: v).reverse = some e := by
          rw [List.reverse_cons, openBehind?_append, hd]
          exact he
        have hrest := ih (p := p) hv
        rwa [List.reverse_cons, List.append_assoc] at hrest
      have hnil : ∀ {p}, Parts p s (compoundTextsFrom p 0 [] s) := fun {p} =>
        ih (p := p) (v := []) rfl
      rw [compoundTextsFrom]
      split_ifs with hopen hclose hsign hspace hempty
      · exact hcollect (by simp [openBehind?, beq_iff_eq.mp hopen])
      · exact hcollect (by simp [openBehind?, beq_iff_eq.mp hclose])
      · simp only [Bool.and_eq_true, beq_iff_eq] at hsign
        obtain ⟨rfl, rfl⟩ := hsign
        have hchild := Parts.child (p := p) hd hnil
        rwa [List.reverse_reverse] at hchild
      · simp only [Bool.and_eq_true, beq_iff_eq] at hspace
        obtain ⟨rfl, hc⟩ := hspace
        obtain rfl := List.isEmpty_iff.mp hempty
        exact Parts.blank (u := []) rfl hc hnil
      · simp only [Bool.and_eq_true, beq_iff_eq] at hspace
        obtain ⟨rfl, hc⟩ := hspace
        have hnext : Parts (if v.reverse.isEmpty then p else .descendant) s
            (compoundTextsFrom .descendant 0 [] s) := by
          rw [if_neg (by simpa using hempty)]
          exact hnil
        have hblank := Parts.blank hd hc hnext
        rwa [List.reverse_reverse] at hblank
      · refine hcollect ?_
        simp only [beq_iff_eq, Bool.and_eq_true, not_and] at hopen hclose hsign hspace
        rw [openBehind?, if_neg hopen, if_neg hclose, if_neg]
        · rfl
        · rintro ⟨hzero, hparts⟩
          exact hparts.elim (hsign hzero) (hspace hzero)

/-- **A group is parted in one way.** -/
theorem compoundTexts_eq_iff : compoundTexts s = ts ↔ Parts .descendant s ts := by
  refine ⟨?_, Parts.compoundTextsFrom_eq⟩
  rintro rfl
  exact parts_compoundTextsFrom (v := []) rfl s

/-! ### Groups that have a path -/

lemma ne_nil_of_mem_flush {x : CompoundText} (h : x ∈ flush p u) : x.text ≠ [] := by
  rw [flush] at h
  split_ifs at h with hempty
  · simp at h
  · obtain rfl := List.mem_singleton.mp h
    simpa using hempty

/-- What is left of a group is not empty. -/
lemma Parts.ne_nil {x : CompoundText} (h : Parts p s ts) (hx : x ∈ ts) : x.text ≠ [] := by
  induction h with
  | last => exact ne_nil_of_mem_flush hx
  | child _ _ ih => exact (List.mem_append.mp hx).elim ne_nil_of_mem_flush ih
  | blank _ _ _ ih => exact (List.mem_append.mp hx).elim ne_nil_of_mem_flush ih

/-- A text is accepted for the compound of a step, behind its combinator. -/
structure Step.Accepts (step : Step) (x : CompoundText) : Prop where
  combinator : x.combinator = step.combinator
  hasTag : step.compound.HasTag
  writes : step.compound.Writes Test.Accepts x.text

/-- **A group is accepted** for steps: there is one at least, and each of its parts is
accepted for one of them. -/
structure Chain.Accepts (steps : Chain) (s : Text) : Prop where
  ne_nil : steps ≠ []
  parts : ∃ ts, Parts .descendant s ts ∧ List.Forall₂ Step.Accepts steps ts

/-- The steps of parts are read exactly if each part is accepted for its step. -/
lemma mapM_readCompound_iff {steps : List Step} (hts : ∀ x ∈ ts, x.text ≠ []) :
    (ts.mapM fun x => do return (⟨x.combinator, ← readCompound x.text⟩ : Step)) =
      (.ok steps : Except Unsupported (List Step)) ↔ List.Forall₂ Step.Accepts steps ts := by
  induction ts generalizing steps with
  | nil =>
      rw [List.forall₂_nil_right_iff]
      exact ⟨fun h => (Except.ok.inj h).symm, fun h => h ▸ rfl⟩
  | cons x ts ih =>
      rw [List.forall_mem_cons] at hts
      rw [List.mapM_cons]
      constructor
      · intro h
        obtain ⟨y, hy, h⟩ := bind_eq_ok.mp h
        obtain ⟨others, hothers, h⟩ := bind_eq_ok.mp h
        obtain ⟨z, hz, hy⟩ := bind_eq_ok.mp hy
        obtain ⟨htag, hwrites⟩ := (readCompound_eq_ok_iff hts.1).mp hz
        obtain rfl := Except.ok.inj hy
        obtain rfl := Except.ok.inj h
        exact .cons ⟨rfl, htag, hwrites⟩ ((ih hts.2).mp hothers)
      · rintro (_ | ⟨⟨hhow, htag, hwrites⟩, hothers⟩)
        have hread := (readCompound_eq_ok_iff hts.1).mpr ⟨htag, hwrites⟩
        rw [(ih hts.2).mpr hothers]
        simp only [hread, hhow, ok_bind, pure_eq_ok]

/-- A group is read as the steps that it is accepted for. -/
lemma readGroup_eq_ok_iff {steps : Chain} : readGroup s = .ok steps ↔ steps.Accepts s := by
  have hparts := compoundTexts_eq_iff.mp (rfl : compoundTexts s = _)
  have hread : readGroup s = .ok steps ↔
      steps ≠ [] ∧ List.Forall₂ Step.Accepts steps (compoundTexts s) := by
    rw [readGroup]
    split
    · next hnil =>
        rw [hnil, List.forall₂_nil_right_iff]
        simp
    · next hne =>
        rw [mapM_readCompound_iff fun x hx => hparts.ne_nil hx]
        refine ⟨fun h => ⟨?_, h⟩, fun h => h.2⟩
        rintro rfl
        exact hne (List.forall₂_nil_left_iff.mp h)
  rw [hread]
  constructor
  · rintro ⟨hne, hsteps⟩
    exact ⟨hne, _, hparts, hsteps⟩
  · rintro ⟨hne, ts, hts, hsteps⟩
    rw [compoundTexts_eq_iff.mpr hts]
    exact ⟨hne, hsteps⟩

/-- **The groups that have a path** are those that are accepted for steps, and their path is
that of the steps; all others are rejected. -/
theorem groupToXPath_eq_ok_iff {path : Text} :
    groupToXPath s = .ok path ↔ ∃ steps : Chain, steps.Accepts s ∧ steps.toXPath = path := by
  simp only [← readGroup_eq_ok_iff, groupToXPath]
  cases readGroup s <;> simp [Except.map]

/-! ### The grammar -/

/-- **The texts of a test in the grammar**: a value stands between quotation marks of a kind
that it does not hold; and one that holds no blanks, quotation marks and brackets may stand
bare. -/
def Test.Derives (t : Test) (s : Text) : Prop :=
  t.Quotes s ∨ ∃ a how v, t = .compare a how v ∧ v ≠ [] ∧
    (∀ c ∈ v, isBlank c = false ∧ isQuote c = false ∧ c ≠ '[' ∧ c ≠ ']') ∧
    s = '[' :: (a ++ (sign how ++ v)) ++ [']']

/-- The characters of groups outside square brackets. -/
def isGroupChar (c : Char) : Bool :=
  isIdentChar c || Text.isDigit c || isCssSpace c || "*#.:()>".toList.contains c

lemma isGroupChar_of_isIdentChar (h : isIdentChar c = true) : isGroupChar c = true := by
  simp [isGroupChar, h]

lemma isGroupChar_ident (h : isPlainIdent v = true) : ∀ c ∈ v, isGroupChar c = true :=
  fun c hc => isGroupChar_of_isIdentChar
    (isIdentChar_of_isPlainIdentChar (all_of_isPlainIdent h c hc))

lemma isGroupChar_name (h : isWordName v = true) : ∀ c ∈ v, isGroupChar c = true := by
  cases v with
  | nil => simp
  | cons d r =>
      simp only [isWordName, Bool.and_eq_true, List.all_eq_true] at h
      rw [List.forall_mem_cons]
      exact ⟨isGroupChar_of_isIdentChar (isIdentChar_of_isPlainIdentChar
        (isPlainIdentChar_of_isIdentStart h.1)), fun e he => isGroupChar_of_isIdentChar (h.2 e he)⟩

lemma Test.isGroupChar_of_derives {t : Test} (h : t.Derives u) (ht : t.isLegible = true)
    (hu : '[' ∉ u) : ∀ c ∈ u, isGroupChar c = true := by
  rcases h with h | ⟨a, how, v, -, -, -, rfl⟩
  · cases t with
    | id v =>
        obtain rfl : u = '#' :: v := h
        exact List.forall_mem_cons.mpr ⟨rfl, isGroupChar_ident (v := v) ht⟩
    | classToken v =>
        obtain rfl : u = '.' :: v := h
        exact List.forall_mem_cons.mpr ⟨rfl, isGroupChar_ident (v := v) ht⟩
    | present a =>
        obtain rfl : u = '[' :: a ++ [']'] := h
        simp at hu
    | compare a how v =>
        obtain ⟨q, -, -, rfl⟩ := h
        simp at hu
    | nthOfType digits =>
        obtain rfl : u = ":nth-of-type(".toList ++ digits ++ [')'] := h
        simp only [isLegible, Bool.and_eq_true, List.all_eq_true] at ht
        rw [List.forall_mem_append, List.forall_mem_append, List.forall_mem_singleton]
        exact ⟨⟨by decide, fun c hc => by simp [isGroupChar, ht.2 c hc]⟩, rfl⟩
  · simp at hu

lemma Compound.isGroupChar_of_derives {x : Compound} (h : x.Writes Test.Derives u)
    (hx : x.isLegible = true) (hu : '[' ∉ u) : ∀ c ∈ u, isGroupChar c = true := by
  obtain ⟨us, hus, htext⟩ := h
  have htests : ∀ {ts us}, List.Forall₂ Test.Derives ts us → (∀ t ∈ ts, t.isLegible = true) →
      '[' ∉ us.flatten → ∀ c ∈ us.flatten, isGroupChar c = true := by
    intro ts us hus hts hm
    induction hus with
    | nil => simp
    | cons hu _ ih =>
        rw [List.forall_mem_cons] at hts
        rw [List.flatten_cons, List.mem_append, not_or] at hm
        rw [List.flatten_cons, List.forall_mem_append]
        exact ⟨Test.isGroupChar_of_derives hu hts.1 hm.1, ih hts.2 hm.2⟩
  have hlegible := Compound.isLegible_tests hx
  rcases htext with rfl | ⟨-, -, rfl⟩
  · rw [List.mem_append, not_or] at hu
    rw [List.forall_mem_append]
    refine ⟨?_, htests hus hlegible hu.2⟩
    by_cases hstar : x.tag = ['*']
    · rw [hstar]
      decide
    · exact isGroupChar_name (Compound.isLegible_tag hx hstar)
  · exact htests hus hlegible hu

/-- A compound starts with a name or with the sign of a test. -/
lemma Compound.head_of_derives {x : Compound} (h : x.Writes Test.Derives u)
    (hx : x.isLegible = true) : ∃ c r, u = c :: r ∧ startsText c = true := by
  obtain ⟨us, hus, htext⟩ := h
  rcases htext with rfl | ⟨-, hne, rfl⟩
  · by_cases hstar : x.tag = ['*']
    · rw [hstar]
      exact ⟨'*', _, rfl, by decide⟩
    · have htag := Compound.isLegible_tag hx hstar
      cases hname : x.tag with
      | nil => simp [isWordName, hname] at htag
      | cons d r =>
          rw [hname, isWordName, Bool.and_eq_true] at htag
          exact ⟨d, _, rfl, by simp [startsText, htag.1]⟩
  · generalize x.tests = ts at hus hne
    cases hus with
    | nil => exact absurd rfl hne
    | @cons t u ts us hu _ =>
        have hstart : ∃ c r, u = c :: r ∧ startsTest c = true := by
          rcases hu with hu | ⟨a, how, v, -, -, -, rfl⟩
          · exact hu.exists_cons
          · exact ⟨'[', _, rfl, by decide⟩
        obtain ⟨c, r, rfl, hc⟩ := hstart
        refine ⟨c, _, rfl, ?_⟩
        have hall : ("#.[:".toList.all startsText) = true := by decide
        exact List.all_eq_true.mp hall c (by simpa [startsTest] using hc)

lemma Combinator.Writes.isGroupChar_of_mem {how : Combinator} (h : how.Writes s) :
    ∀ c ∈ s, Css.isGroupChar c = true := by
  have hblanks : ∀ {bs}, AreBlanks bs → ∀ c ∈ bs, Css.isGroupChar c = true := fun hb c hc => by
    simp [Css.isGroupChar, hb c hc]
  cases h with
  | descendant hb _ => exact hblanks hb
  | child hb hb' =>
      rw [List.forall_mem_append, List.forall_mem_cons]
      exact ⟨hblanks hb, rfl, hblanks hb'⟩

lemma RestWrites.isGroupChar_of_derives {steps : List Step} (h : RestWrites Test.Derives steps s)
    (hsteps : ∀ x ∈ steps, x.compound.isLegible = true) (hs : '[' ∉ s) :
    ∀ c ∈ s, isGroupChar c = true := by
  induction h with
  | nil => simp
  | cons hj hc _ ih =>
      rw [List.forall_mem_cons] at hsteps
      simp only [List.mem_append, not_or] at hs
      simp only [List.forall_mem_append]
      exact ⟨hj.isGroupChar_of_mem, Compound.isGroupChar_of_derives hc hsteps.1 hs.2.1,
        ih hsteps.2 hs.2.2⟩

/-- No other characters stand in a group of the grammar without square brackets. -/
lemma Group.isGroupChar_of_derives {g : Group} (h : g.Writes Test.Derives s)
    (hg : ∀ x ∈ g.compounds, x.isLegible = true) (hs : '[' ∉ s) :
    ∀ c ∈ s, isGroupChar c = true := by
  obtain ⟨cs, t, hcs, ht, rfl⟩ := h
  rw [compounds, List.forall_mem_cons, List.forall_mem_map] at hg
  rw [List.mem_append, not_or] at hs
  rw [List.forall_mem_append]
  exact ⟨Compound.isGroupChar_of_derives hcs hg.1 hs.1, ht.isGroupChar_of_derives hg.2 hs.2⟩

/-- **Groups outside the grammar that have a path**: a sign for children in front, at the end
or behind another one does not count, and a sign for siblings behind a name is taken for a
part of the name. -/
theorem groupToXPath_stray :
    (∀ s ∈ [">a".toList, ".a+b".toList, "#a~b".toList], ∀ g : Group,
      (∀ x ∈ g.compounds, x.isLegible = true) → ¬ g.Writes Test.Derives s) ∧
    groupToXPath ">a".toList = .ok "//a".toList ∧
    groupToXPath "a>".toList = .ok "//a".toList ∧
    groupToXPath "a>>b".toList = .ok "//a/b".toList ∧
    groupToXPath "#a~b".toList = .ok "//*[@id=\x22a~b\x22]".toList ∧
    groupToXPath ".a+b".toList = .ok
      "//*[contains(concat(' ', normalize-space(@class), ' '), ' a+b ')]".toList := by
  refine ⟨fun s hs g hg h => ?_, rfl, rfl, rfl, rfl, rfl⟩
  simp only [List.mem_cons, List.not_mem_nil, or_false] at hs
  rcases hs with rfl | rfl | rfl
  · obtain ⟨cs, t, hcs, -, htext⟩ := h
    obtain ⟨c, r, rfl, hc⟩ := Compound.head_of_derives hcs (hg _ List.mem_cons_self)
    obtain rfl := (List.cons.inj htext).1
    exact absurd hc (by decide)
  · exact absurd (Group.isGroupChar_of_derives h hg (by decide) '+' (by decide)) (by decide)
  · exact absurd (Group.isGroupChar_of_derives h hg (by decide) '~' (by decide)) (by decide)

end Locator.Css
