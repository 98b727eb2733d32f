/-
Selectors as they are written

* `Compound.Writes`, `RestWrites`, `Group.Writes`, `ListWrites`: the texts of compounds,
  of compounds behind the first one, of groups, and of groups with commas between them,
  if the texts of tests are given;
* `IsFormed`, `IsSelector`: a text of groups whose values are escaped between double quotation
  marks, and one of groups that queries can ask for;
* `Test.reread`: the test that is read where a test is printed;
* `Test.spells`, `Compound.Writes.spells`, `Group.Writes.spells`: what is written is read
  as tokens, unless a value holds a line break;
* `readAll_of_isFormed`: **a selector is read as its groups**.
-/
import Locator.Proofs.Css.List
import Locator.Proofs.Css.Test

namespace Locator.Css

open Text

/-! ### Texts -/

/-- A text of blanks, perhaps without any. -/
def AreBlanks (s : Text) : Prop := ∀ c ∈ s, isCssSpace c = true

lemma areBlanks_nil : AreBlanks [] := by simp [AreBlanks]

/-- The texts of a compound, if `W` tells those of its tests. Its name is left out only
where it is the asterisk and a test follows. -/
def Compound.Writes (W : Test → Text → Prop) (c : Compound) (s : Text) : Prop :=
  ∃ us, List.Forall₂ W c.tests us ∧
    (s = c.tag ++ us.flatten ∨ (c.tag = ['*'] ∧ c.tests ≠ [] ∧ s = us.flatten))

/-- The texts of a combinator: blanks, or a sign, perhaps between blanks. -/
inductive Combinator.Writes : Combinator → Text → Prop
  | descendant {bs : Text} (hb : AreBlanks bs) (hne : bs ≠ []) : Writes .descendant bs
  | child {before behind : Text} (hb : AreBlanks before) (hb' : AreBlanks behind) :
      Writes .child (before ++ '>' :: behind)

/-- The texts of compounds behind a first one. -/
inductive RestWrites (W : Test → Text → Prop) : List Step → Text → Prop
  | nil : RestWrites W [] []
  | cons {s : Step} {ss : List Step} {js cs t : Text} (hj : s.combinator.Writes js)
      (hc : s.compound.Writes W cs) (hs : RestWrites W ss t) :
      RestWrites W (s :: ss) (js ++ (cs ++ t))

/-- The texts of a group. -/
def Group.Writes (W : Test → Text → Prop) (g : Group) (s : Text) : Prop :=
  ∃ cs t, g.first.Writes W cs ∧ RestWrites W g.rest t ∧ s = cs ++ t

/-- The texts of groups with a comma between each two of them, which may stand between
blanks. -/
inductive ListWrites (W : Test → Text → Prop) : List Group → Text → Prop
  | one {g : Group} {s bs : Text} (hg : g.Writes W s) (hb : AreBlanks bs) :
      ListWrites W [g] (s ++ bs)
  | cons {g : Group} {gs : List Group} {s before behind t : Text} (hg : g.Writes W s)
      (hb : AreBlanks before) (hb' : AreBlanks behind) (hs : ListWrites W gs t) :
      ListWrites W (g :: gs) (s ++ (before ++ ',' :: (behind ++ t)))

/-- The text of a test with its value escaped. -/
def Test.Escapes (t : Test) (s : Text) : Prop := s = t.toCss

/-- **A selector**: groups of plain compounds, with blanks where they may stand. -/
structure IsSelector (gs : List Group) (s : Text) : Prop where
  written : ∃ bs t, AreBlanks bs ∧ ListWrites Test.Escapes gs t ∧ s = bs ++ t
  plain : ∀ g ∈ gs, ∀ c ∈ g.compounds, c.isPlain = true

/-- A selector that need not ask for anything: groups of formed compounds, with blanks where
they may stand. -/
structure IsFormed (gs : List Group) (s : Text) : Prop where
  written : ∃ bs t, AreBlanks bs ∧ ListWrites Test.Escapes gs t ∧ s = bs ++ t
  formed : ∀ g ∈ gs, ∀ c ∈ g.compounds, c.isFormed = true

lemma IsSelector.isFormed {gs : List Group} {s : Text} (h : IsSelector gs s) : IsFormed gs s :=
  ⟨h.written, fun g hg c hc => Compound.isFormed_of_isPlain (h.plain g hg c hc)⟩

/-! ### Other texts of tests -/

section Mono

variable {W W' : Test → Text → Prop} {s : Text}

lemma Compound.Writes.mono {c : Compound} (h : c.Writes W s)
    (hw : ∀ t ∈ c.tests, ∀ u, W t u → W' t u) : c.Writes W' s := by
  obtain ⟨us, hus, hs⟩ := h
  refine ⟨us, ?_, hs⟩
  rw [List.forall₂_iff_get] at hus ⊢
  exact ⟨hus.1, fun i hi hi' => hw _ (List.get_mem _ _) _ (hus.2 i hi hi')⟩

lemma RestWrites.mono {ss : List Step} (h : RestWrites W ss s)
    (hw : ∀ st ∈ ss, ∀ t ∈ st.compound.tests, ∀ u, W t u → W' t u) : RestWrites W' ss s := by
  induction h with
  | nil => exact .nil
  | cons hj hc _ ih =>
      rw [List.forall_mem_cons] at hw
      exact .cons hj (hc.mono hw.1) (ih hw.2)

lemma Group.Writes.mono {g : Group} (h : g.Writes W s)
    (hw : ∀ c ∈ g.compounds, ∀ t ∈ c.tests, ∀ u, W t u → W' t u) : g.Writes W' s := by
  obtain ⟨cs, t, hc, hs, rfl⟩ := h
  rw [Group.compounds, List.forall_mem_cons, List.forall_mem_map] at hw
  exact ⟨cs, t, hc.mono hw.1, hs.mono hw.2, rfl⟩

/-- Only the texts of the tests that there are count. -/
lemma ListWrites.mono {gs : List Group} (h : ListWrites W gs s)
    (hw : ∀ g ∈ gs, ∀ c ∈ g.compounds, ∀ t ∈ c.tests, ∀ u, W t u → W' t u) :
    ListWrites W' gs s := by
  induction h with
  | one hg hb => exact .one (hg.mono (hw _ (by simp))) hb
  | cons hg hb hb' _ ih =>
      rw [List.forall_mem_cons] at hw
      exact .cons (hg.mono hw.1) hb hb' (ih hw.2)

end Mono

/-- The texts of tests with their values escaped. -/
lemma eq_map_toCss {ts : List Test} {us : List Text} (h : List.Forall₂ Test.Escapes ts us) :
    us = ts.map Test.toCss := by
  induction h with
  | nil => rfl
  | cons hu _ ih => rw [hu, ih, List.map_cons]

/-- The texts of a compound with its values escaped. -/
lemma Compound.writes_escapes {c : Compound} {s : Text} (h : c.Writes Test.Escapes s) :
    s = c.tag ++ c.tests.flatMap Test.toCss ∨
      (c.tag = ['*'] ∧ c.tests ≠ [] ∧ s = c.tests.flatMap Test.toCss) := by
  obtain ⟨us, hus, hs⟩ := h
  rwa [eq_map_toCss hus, ← List.flatMap_def] at hs

/-! ### What is read where a compound is printed -/

section Reread

variable {t : Test} {c : Compound} {g : Group}

/-- The test that is read where a test is printed: a backslash in front of hexadecimal digits
is taken for an escape. -/
def Test.reread : Test → Test
  | .compare a how v => .compare a how (unescape (escape v))
  | t => t

/-- The compound that is read where a compound is printed. -/
def Compound.reread (c : Compound) : Compound := ⟨c.tag, c.tests.map Test.reread⟩

/-- The group that is read where a group is printed. -/
def Group.reread (g : Group) : Group :=
  ⟨g.first.reread, g.rest.map fun s => ⟨s.combinator, s.compound.reread⟩⟩

/-- A value without backslashes is read as it is. -/
lemma Test.reread_of_isFormed (h : t.isFormed = true) : t.reread = t := by
  cases t with
  | compare a how v =>
      simp only [isFormed, Bool.and_eq_true] at h
      rw [reread, unescape_escape (isClear_of_isPlainChar h.1.2)]
  | _ => rfl

lemma Compound.reread_of_isFormed (h : c.isFormed = true) : c.reread = c := by
  rw [reread, List.map_congr_left fun t ht => Test.reread_of_isFormed (isFormed_tests h t ht),
    List.map_id']

lemma Group.reread_of_isFormed (h : ∀ c ∈ g.compounds, c.isFormed = true) : g.reread = g := by
  rw [Group.compounds, List.forall_mem_cons, List.forall_mem_map] at h
  rw [reread, Compound.reread_of_isFormed h.1,
    List.map_congr_left fun s hs => by rw [Compound.reread_of_isFormed (h.2 s hs)], List.map_id']

/-- Is there no line break in the values of a compound? -/
def Compound.isUnbroken (c : Compound) : Bool :=
  c.tests.all fun t => t.value.all fun x => !isBreak x

lemma Compound.isUnbroken_of_isFormed (h : c.isFormed = true) : c.isUnbroken = true := by
  simp only [isUnbroken, List.all_eq_true, Bool.not_eq_true']
  intro t ht x hx
  have hformed := isFormed_tests h t ht
  cases t with
  | compare a how v =>
      simp only [Test.isFormed, Bool.and_eq_true, List.all_eq_true] at hformed
      exact isBreak_of_isPlainChar (hformed.1.2 x hx)
  | _ => simp [Test.value] at hx

end Reread

/-! ### What is written in tokens -/

section Spelled

variable {rest : Text}

lemma endsIdent_cons (c : Char) (r : Text) (h : Css.isNameChar c = false)
    (hb : c ≠ '\\') : EndsIdent (c :: r) := by
  rintro _ ⟨rfl⟩
  exact ⟨h, hb⟩

/-- The sign of a comparison is read as its characters. -/
lemma spells_sign (how : Comparison) (rest : Text) :
    Spells (Test.sign how) ((Test.sign how).map fun c => (.delim, [c])) rest := by
  have hequals : Spells ['='] [(.delim, ['='])] rest := .of_scans (scans_sign (by decide) _)
  have htwo : ∀ c ∈ signs, Spells [c, '='] [(.delim, [c]), (.delim, ['='])] rest := fun c hc =>
    (Spells.of_scans (scans_sign hc _)).append hequals
  cases how with
  | equals => exact hequals
  | _ => exact htwo _ (by decide)

/-- What stands in front of the value of a comparison is read as its tokens. -/
lemma spells_opening {a : Text} (ha : IsIdent a) (how : Comparison) (rest : Text) :
    Spells (['['] ++ (a ++ Test.sign how))
      ((.delim, ['[']) :: (.ident, a) :: (Test.sign how).map fun c => (.delim, [c])) rest := by
  have hopen : Spells ['['] [(.delim, ['['])] (a ++ Test.sign how ++ rest) :=
    .of_scans (scans_sign (by decide) _)
  have hends : EndsIdent (Test.sign how ++ rest) := by
    cases how <;> exact endsIdent_cons _ _ rfl (by decide)
  exact hopen.append ((Spells.of_scans (scans_ident ha hends)).append (spells_sign how rest))

/-- The text of a comparison, its value apart. -/
lemma toCss_compare (a : Text) (how : Comparison) (v : Text) : (Test.compare a how v).toCss =
    ['['] ++ (a ++ Test.sign how) ++ ('"' :: escape v ++ ['"'] ++ [']']) := by
  change '[' :: a ++ Test.sign how ++ '"' :: escape v ++ ['"', ']'] = _
  simp

/-- Digits of any script are read as a number and a name. -/
lemma spells_digits {digits : Text} (h : digits.all Text.isDigit = true)
    (hname : EndsIdent rest) (hnumber : EndsDigits rest) :
    Spells digits (Test.digitLexemes digits) rest := by
  rw [List.all_eq_true] at h
  set number := digits.takeWhile Char.isDigit with hn
  set name := digits.dropWhile Char.isDigit with hm
  have hsplit : number ++ name = digits := List.takeWhile_append_dropWhile
  have hdigits : ∀ c ∈ name, Text.isDigit c = true := fun c hc =>
    h c (hsplit ▸ List.mem_append_right number hc)
  have hhead : ∀ c ∈ name.head?, c.isDigit = false := fun c hc => by
    have hc : (digits.dropWhile Char.isDigit).head? = some c := hc
    simpa [hc] using List.head?_dropWhile_not Char.isDigit digits
  have hbehind : Spells name (if name = [] then [] else [(.ident, name)]) rest := by
    split_ifs with hnil
    · rw [hnil]
      exact .nil rest
    · obtain ⟨c, r, hcr⟩ := List.exists_cons_of_ne_nil hnil
      have hstart := startsIdent_of_isDigit (hdigits c (by simp [hcr])) (hhead c (by simp [hcr]))
      have hhyphen : c ≠ '-' := by
        rintro rfl
        exact absurd hstart (by decide)
      refine .of_scans (scans_ident ⟨?_, fun d hd => isNameChar_of_isDigit (hdigits d hd)⟩ hname)
      rw [hcr, opensIdent_of_ne hhyphen, hstart]
  have hfront : Spells number (if number = [] then [] else [(.number, number)]) (name ++ rest) := by
    split_ifs with hnil
    · rw [hnil]
      exact .nil _
    · refine .of_scans (scans_number hnil (fun c hc => List.mem_takeWhile_imp hc) ?_)
      rcases hcr : name with - | ⟨c, r⟩
      · exact hnumber
      · rintro _ ⟨rfl⟩
        refine ⟨hhead c (by simp [hcr]), ?_⟩
        rintro rfl
        exact absurd (hdigits '.' (by simp [hcr])) (by decide)
  have hall := hfront.append hbehind
  rwa [hsplit] at hall

/-- A test is read as its tokens. -/
lemma Test.spells {t : Test} (ht : t.isLegible = true) (hv : ∀ c ∈ t.value, isBreak c = false)
    (hr : EndsIdent rest) : Spells t.toCss t.reread.lexemes rest := by
  cases t with
  | id v =>
      have hv := isIdent_of_isPlainIdent ht
      exact .of_scans (scans_hash hv.ne_nil hv.chars hr)
  | classToken v =>
      have hv := isIdent_of_isPlainIdent ht
      have hpoint : Spells ['.'] [(.delim, ['.'])] (v ++ rest) :=
        .of_scans (scans_point (isDigit_head_of_isPlainIdent ht rest))
      exact hpoint.append (.of_scans (scans_ident hv hr))
  | present a =>
      have ha : IsIdent a := isIdent_of_isWordName (s := a) ht
      have hopen : Spells ['['] [(.delim, ['['])] (a ++ [']'] ++ rest) :=
        .of_scans (scans_sign (by decide) _)
      have hname : Spells a [(.ident, a)] ([']'] ++ rest) :=
        .of_scans (scans_ident ha (endsIdent_cons ']' rest rfl (by decide)))
      have hclose : Spells [']'] [(.delim, [']'])] rest := .of_scans (scans_sign (by decide) _)
      exact hopen.append (hname.append hclose)
  | compare a how v =>
      have hopen := spells_opening (isIdent_of_isWordName (s := a) ht) how
        ('"' :: escape v ++ ['"'] ++ [']'] ++ rest)
      have hvalue : Spells ('"' :: escape v ++ ['"']) [(.string, unescape (escape v))]
          ([']'] ++ rest) := .of_scans (scans_string hv ([']'] ++ rest))
      have hclose : Spells [']'] [(.delim, [']'])] rest := .of_scans (scans_sign (by decide) _)
      have hall := hopen.append (hvalue.append hclose)
      rw [toCss_compare]
      simpa [reread, lexemes] using hall
  | nthOfType digits =>
      simp only [isLegible, Bool.and_eq_true] at ht
      have hcolon : Spells [':'] [(.delim, [':'])] (nthName ++ (['('] ++ (digits ++ [')'])) ++ rest) :=
        .of_scans (scans_sign (by decide) _)
      have hname : Spells nthName [(.ident, nthName)] (['('] ++ (digits ++ [')']) ++ rest) :=
        .of_scans (scans_ident (by decide) (endsIdent_cons '(' _ rfl (by decide)))
      have hopen : Spells ['('] [(.delim, ['('])] (digits ++ [')'] ++ rest) :=
        .of_scans (scans_sign (by decide) _)
      have hdigits : Spells digits (digitLexemes digits) ([')'] ++ rest) :=
        spells_digits ht.2 (endsIdent_cons ')' _ rfl (by decide)) (by rintro _ ⟨rfl⟩; exact ⟨rfl, by decide⟩)
      have hclose : Spells [')'] [(.delim, [')'])] rest := .of_scans (scans_sign (by decide) _)
      exact hcolon.append (hname.append (hopen.append (hdigits.append hclose)))

/-- A test starts with a character that ends the name in front of it. -/
lemma endsIdent_tests (ts : List Test) (hr : EndsIdent rest) :
    EndsIdent (ts.flatMap Test.toCss ++ rest) := by
  cases ts with
  | nil => exact hr
  | cons t ts => cases t <;> exact endsIdent_cons _ _ rfl (by decide)

/-- Tests are read one after the other. -/
lemma spells_tests {ts : List Test} (h : ∀ t ∈ ts, t.isLegible = true)
    (hv : ∀ t ∈ ts, ∀ c ∈ t.value, isBreak c = false) (hr : EndsIdent rest) :
    Spells (ts.flatMap Test.toCss) ((ts.map Test.reread).flatMap Test.lexemes) rest := by
  induction ts with
  | nil => exact .nil rest
  | cons t ts ih =>
      rw [List.forall_mem_cons] at h hv
      exact (Test.spells h.1 hv.1 (endsIdent_tests ts hr)).append (ih h.2 hv.2)

/-- The name of a compound is read as its token. -/
lemma Compound.spells_tag {c : Compound} (h : c.isLegible = true) (hr : EndsIdent rest) :
    Spells c.tag [tagLexeme c.tag] rest := by
  rw [tagLexeme]
  split_ifs with hstar
  · rw [hstar]
    exact .of_scans (scans_sign (by decide) rest)
  · exact .of_scans (scans_ident (isIdent_of_isWordName (Compound.isLegible_tag h hstar)) hr)

lemma Compound.isBreak_of_isUnbroken {c : Compound} (h : c.isUnbroken = true) :
    ∀ t ∈ c.tests, ∀ x ∈ t.value, isBreak x = false := by
  simpa only [isUnbroken, List.all_eq_true, Bool.not_eq_true'] using h

/-- **A compound** is read as its tokens. -/
theorem Compound.Writes.spells {c : Compound} {s : Text} (h : c.Writes Test.Escapes s)
    (hc : c.isLegible = true) (hb : c.isUnbroken = true) (hr : EndsIdent rest) :
    ∃ ls, c.reread.Lexes ls ∧ Spells s ls rest := by
  have htests := spells_tests (Compound.isLegible_tests hc) (Compound.isBreak_of_isUnbroken hb) hr
  rcases Compound.writes_escapes h with rfl | ⟨htag, hne, rfl⟩
  · exact ⟨_, .inl rfl, (Compound.spells_tag hc (endsIdent_tests c.tests hr)).append htests⟩
  · exact ⟨_, .inr ⟨htag, by simpa [reread] using hne, rfl⟩, htests⟩

/-! ### Where compounds start -/

/-- A character that a compound starts with. -/
def startsText (c : Char) : Bool := isIdentStart c || "*#.[:".toList.contains c

/-- A text that starts as a compound does. -/
def StartsText (s : Text) : Prop := ∃ c r, s = c :: r ∧ startsText c = true

lemma StartsText.append {s : Text} (h : StartsText s) (t : Text) : StartsText (s ++ t) := by
  obtain ⟨c, r, rfl, hc⟩ := h
  exact ⟨c, r ++ t, rfl, hc⟩

/-- What a compound starts with is no blank and no sign between compounds. -/
lemma of_startsText {c : Char} (h : startsText c = true) :
    isBlank c = false ∧ c ≠ '>' ∧ c ≠ ',' := by
  simp only [startsText, Bool.or_eq_true, List.contains_iff_mem] at h
  rcases h with h | h
  · have hchar := isPlainIdentChar_of_isIdentStart h
    refine ⟨isBlank_of_isPlainIdentChar hchar, ?_, ?_⟩ <;> rintro rfl <;> exact absurd h (by decide)
  · have hall : ("*#.[:".toList.all fun c => !isBlank c && c != '>' && c != ',') = true := by decide
    have := List.all_eq_true.mp hall c h
    simp only [Bool.and_eq_true, Bool.not_eq_true', bne_iff_ne] at this
    exact ⟨this.1.1, this.1.2, this.2⟩

lemma startsText_tests {ts : List Test} (h : ts ≠ []) : StartsText (ts.flatMap Test.toCss) := by
  obtain ⟨t, ts, rfl⟩ := List.exists_cons_of_ne_nil h
  cases t <;> exact ⟨_, _, rfl, by decide⟩

/-- A compound starts with its name or with its first test. -/
lemma Compound.Writes.startsText {c : Compound} {s : Text} (h : c.Writes Test.Escapes s)
    (hc : c.isLegible = true) : StartsText s := by
  rcases Compound.writes_escapes h with rfl | ⟨-, hne, rfl⟩
  · by_cases hstar : c.tag = ['*']
    · rw [hstar]
      exact ⟨'*', _, rfl, by decide⟩
    · have htag := Compound.isLegible_tag hc hstar
      cases hname : c.tag with
      | nil => simp [isWordName, hname] at htag
      | cons d r =>
          rw [hname, isWordName, Bool.and_eq_true] at htag
          exact ⟨d, _, rfl, by simp [Css.startsText, htag.1]⟩
  · exact startsText_tests hne

/-! ### Groups and lists -/

lemma isBlank_of_isCssSpace {c : Char} (h : isCssSpace c = true) : isBlank c = true := by
  simp only [isCssSpace, isSpace, Bool.or_eq_true, beq_iff_eq] at h
  rcases h with (((rfl | rfl) | rfl) | rfl) | rfl <;> rfl

/-- What a compound starts with ends the blanks in front of it. -/
lemma StartsText.isCssSpace {s : Text} (h : StartsText s) (rest : Text) :
    ∀ c ∈ (s ++ rest).head?, isCssSpace c = false := by
  obtain ⟨c, r, rfl, hc⟩ := h
  rintro _ ⟨rfl⟩
  rw [Bool.eq_false_iff]
  intro hs
  have := isBlank_of_isCssSpace hs
  simp [(of_startsText hc).1] at this

/-- Blanks are read as one token, or as none. -/
lemma AreBlanks.spells {bs : Text} (h : AreBlanks bs)
    (hr : ∀ c ∈ rest.head?, isCssSpace c = false) : ∃ b, Spells bs (blankLexeme b) rest := by
  by_cases hne : bs = []
  · subst hne
    exact ⟨false, .nil rest⟩
  · exact ⟨true, .of_scans (scans_space hne h hr)⟩

/-- Blanks end a name. -/
lemma AreBlanks.endsIdent {bs : Text} (h : AreBlanks bs) (hr : bs = [] → EndsIdent rest) :
    EndsIdent (bs ++ rest) := by
  cases bs with
  | nil => exact hr rfl
  | cons c bs =>
      rintro _ ⟨rfl⟩
      have hc := h c (by simp)
      refine ⟨?_, ?_⟩
      · rw [Bool.eq_false_iff]
        intro hname
        simp [isCssSpace_of_isNameChar hname] at hc
      · rintro rfl
        exact absurd hc (by decide)

/-- A combinator is read as its tokens. -/
lemma Combinator.Writes.spells {how : Combinator} {js : Text} (h : how.Writes js)
    (hr : ∀ c ∈ rest.head?, isCssSpace c = false) : ∃ ls, Joins how ls ∧ Spells js ls rest := by
  cases h with
  | descendant hb hne => exact ⟨_, .descendant, .of_scans (scans_space hne hb hr)⟩
  | @child before behind hb hb' =>
      have hsign : ∀ c ∈ ('>' :: behind ++ rest).head?, isCssSpace c = false := by
        rintro _ ⟨rfl⟩
        rfl
      obtain ⟨b, hbefore⟩ := hb.spells hsign
      obtain ⟨b', hbehind⟩ := hb'.spells hr
      have hchild : Spells ['>'] [(.delim, ['>'])] (behind ++ rest) :=
        .of_scans (scans_sign (by decide) _)
      exact ⟨_, .child b b', hbefore.append (hchild.append hbehind)⟩

/-- A combinator ends the name in front of it. -/
lemma Combinator.Writes.endsIdent {how : Combinator} {js : Text} (h : how.Writes js) (r : Text) :
    EndsIdent (js ++ r) := by
  cases h with
  | descendant hb hne => exact hb.endsIdent fun hnil => absurd hnil hne
  | child hb hb' =>
      rw [List.append_assoc]
      exact hb.endsIdent fun _ => endsIdent_cons '>' _ rfl (by decide)

/-- Further compounds start with a combinator. -/
lemma RestWrites.endsIdent {ss : List Step} {t : Text} (h : RestWrites Test.Escapes ss t)
    (hr : EndsIdent rest) : EndsIdent (t ++ rest) := by
  cases h with
  | nil => exact hr
  | cons hj hc hs =>
      rw [List.append_assoc]
      exact hj.endsIdent _

/-- Further compounds are read as their tokens. -/
lemma RestWrites.spells {ss : List Step} {t : Text} (h : RestWrites Test.Escapes ss t)
    (hp : ∀ s ∈ ss, s.compound.isLegible = true ∧ s.compound.isUnbroken = true)
    (hr : EndsIdent rest) :
    ∃ ls, RestLexes (ss.map fun s => ⟨s.combinator, s.compound.reread⟩) ls ∧ Spells t ls rest := by
  induction h with
  | nil => exact ⟨[], .nil, .nil rest⟩
  | @cons s ss js cs t hj hc hs ih =>
      rw [List.forall_mem_cons] at hp
      obtain ⟨ls, hls, hspells⟩ := ih hp.2
      obtain ⟨ms, hms, hcompound⟩ := hc.spells hp.1.1 hp.1.2 (hs.endsIdent hr)
      have hstart := ((hc.startsText hp.1.1).append t).isCssSpace rest
      obtain ⟨ks, hks, hjoin⟩ := hj.spells hstart
      exact ⟨_, .cons hks hms hls, hjoin.append (hcompound.append hspells)⟩

/-- A group is read as its tokens. -/
lemma Group.Writes.spells {g : Group} {s : Text} (h : g.Writes Test.Escapes s)
    (hp : ∀ c ∈ g.compounds, c.isLegible = true ∧ c.isUnbroken = true) (hr : EndsIdent rest) :
    ∃ ls, g.reread.Lexes ls ∧ Spells s ls rest := by
  obtain ⟨cs, t, hc, hs, rfl⟩ := h
  rw [Group.compounds, List.forall_mem_cons, List.forall_mem_map] at hp
  obtain ⟨ls, hls, hspells⟩ := hs.spells hp.2 hr
  obtain ⟨ms, hms, hcompound⟩ := hc.spells hp.1.1 hp.1.2 (hs.endsIdent hr)
  exact ⟨_, ⟨ms, ls, hms, hls, rfl⟩, hcompound.append hspells⟩

lemma Group.Writes.startsText {g : Group} {s : Text} (h : g.Writes Test.Escapes s)
    (hp : ∀ c ∈ g.compounds, c.isLegible = true) : StartsText s := by
  obtain ⟨cs, t, hc, -, rfl⟩ := h
  exact (hc.startsText (hp g.first (by simp [Group.compounds]))).append t

lemma ListWrites.startsText {gs : List Group} {s : Text} (h : ListWrites Test.Escapes gs s)
    (hp : ∀ g ∈ gs, ∀ c ∈ g.compounds, c.isLegible = true) : StartsText s := by
  cases h with
  | one hg hb => exact (hg.startsText (hp _ (by simp))).append _
  | cons hg => exact (hg.startsText (hp _ (by simp))).append _

/-- **Groups with commas between them** are read as their tokens. -/
theorem ListWrites.spells {gs : List Group} {s : Text} (h : ListWrites Test.Escapes gs s)
    (hp : ∀ g ∈ gs, ∀ c ∈ g.compounds, c.isLegible = true ∧ c.isUnbroken = true) :
    ∃ ls, ListLexes (gs.map Group.reread) ls ∧ Spells s ls [] := by
  have hnil : EndsIdent [] := by
    rintro _ ⟨⟩
  induction h with
  | one hg hb =>
      have hdone : ∀ c ∈ ([] : Text).head?, isCssSpace c = false := by simp
      obtain ⟨b, hblanks⟩ := hb.spells hdone
      obtain ⟨ls, hls, hspells⟩ := hg.spells (hp _ (by simp)) (hb.endsIdent fun _ => hnil)
      exact ⟨_, .one hls b, hspells.append hblanks⟩
  | @cons g gs s before behind t hg hb hb' hs ih =>
      rw [List.forall_mem_cons] at hp
      obtain ⟨ms, hms, hothers⟩ := ih hp.2
      obtain ⟨b', hbehind⟩ := hb'.spells
        ((hs.startsText fun g hg c hc => (hp.2 g hg c hc).1).isCssSpace [])
      have hcomma : Spells [','] [(.delim, [','])] (behind ++ t ++ []) :=
        .of_scans (scans_sign (by decide) _)
      have hsign : ∀ c ∈ ([','] ++ (behind ++ t) ++ []).head?, isCssSpace c = false := by
        rintro _ ⟨rfl⟩
        rfl
      obtain ⟨b, hbefore⟩ := hb.spells hsign
      have hends : EndsIdent (before ++ ([','] ++ (behind ++ t)) ++ []) := by
        rw [List.append_assoc]
        exact hb.endsIdent fun _ => endsIdent_cons ',' _ rfl (by decide)
      obtain ⟨ls, hls, hspells⟩ := hg.spells hp.1 hends
      exact ⟨_, .cons hls b b' hms,
        hspells.append (hbefore.append (hcomma.append (hbehind.append hothers)))⟩

end Spelled

/-- **What is printed is read**, unless a value holds a line break. -/
theorem readAll_of_writes {gs : List Group} {bs s : Text} (hb : AreBlanks bs)
    (h : ListWrites Test.Escapes gs s)
    (hp : ∀ g ∈ gs, ∀ c ∈ g.compounds, c.isLegible = true ∧ c.isUnbroken = true) :
    ∃ xs, List.Forall₂ Group.Combines (gs.map Group.reread) xs ∧
      Selector.readAll (bs ++ s) = .ok (xs.map (·, none)) := by
  obtain ⟨ls, hls, hspells⟩ := h.spells hp
  obtain ⟨b, hblanks⟩ := hb.spells
    ((h.startsText fun g hg c hc => (hp g hg c hc).1).isCssSpace [])
  exact Selector.readAll_eq (hblanks.append hspells) hls

/-- **A selector** is read as its groups. -/
theorem readAll_of_isFormed {gs : List Group} {s : Text} (h : IsFormed gs s) :
    ∃ xs, List.Forall₂ Group.Combines gs xs ∧ Selector.readAll s = .ok (xs.map (·, none)) := by
  obtain ⟨⟨bs, t, hb, ht, rfl⟩, hp⟩ := h
  have hgroups : gs.map Group.reread = gs :=
    (List.map_congr_left fun g hg => Group.reread_of_isFormed (hp g hg)).trans (List.map_id gs)
  have hread := readAll_of_writes hb ht fun g hg c hc =>
    ⟨Compound.isLegible_of_isFormed (hp g hg c hc), Compound.isUnbroken_of_isFormed (hp g hg c hc)⟩
  rwa [hgroups] at hread

end Locator.Css
