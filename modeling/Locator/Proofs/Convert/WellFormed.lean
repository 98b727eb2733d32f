/-
Selectors whose paths are expressions

* `Test.isSpelled`, `Compound.isSpelled`: names are names of XML, and values hold characters of
  XML alone; `Test.isTame`: class names without apostrophes, and places in ASCII digits;
* `Compound.exists_stepReads`, `Compound.isClosed_toXPath`: what is spelled so is read as a
  step, and what is tame is closed;
* `Compound.isSpelled_of_outside`: what an expression may hold is spelled so;
* `isExpression_toXPath_iff`: **the path of a tame selector is an expression** exactly if its
  compounds are spelled so;
* `isExpression_apostropheClass`: paths that are no expressions.
-/
import Locator.Proofs.Convert.Condition
import Locator.Proofs.Convert.Rejected
import Locator.Proofs.XPath.Token

namespace Locator

open Text

namespace XPath

variable {v : Text}

/-- The literal of a text is closed, whatever the text holds. -/
lemma isClosed_literal (v : Text) : IsClosed (literal v) := by
  have hdouble : ∀ {s : Text}, '"' ∉ s → Outside (fun _ => True) (inDouble s) := fun hs =>
    .literal rfl trivial hs
  have hsingle : ∀ {s : Text}, '\'' ∉ s → Outside (fun _ => True) (inSingle s) := fun hs =>
    .literal rfl trivial hs
  by_cases hd : '"' ∈ v
  · by_cases hs : '\'' ∈ v
    · have hparts : ∀ part ∈ concatArguments (pieces (· == '"') v),
          Outside (fun _ => True) part := by
        have hpieces : ∀ part ∈ (pieces (· == '"') v).map inDouble,
            Outside (fun _ => True) part := by
          rw [List.forall_mem_map]
          exact fun part hp => hdouble fun hm => by simpa using forall_of_mem_pieces hp _ hm
        have hmark : Outside (fun _ => True) (inSingle ['"']) := hsingle (by simp)
        have hall := forall₂_intersperse (R := fun part _ => Outside (fun _ => True) part)
          (y := inSingle ['"']) hmark (List.forall₂_same.mpr hpieces)
        rwa [List.forall₂_same] at hall
      have htext : literal v = "concat(".toList ++
          join ", ".toList (concatArguments (pieces (· == '"') v)) ++ [')'] := by
        simp [literal, hd, hs]
      have hsep : Outside (fun _ => True) ", ".toList := .of_plain (by decide)
      have hopen : IsClosed "concat(".toList := by decide
      rw [htext]
      exact (hopen.append (Outside.join hsep hparts).closed).append (by decide)
    · have htext : literal v = inSingle v := by simp [literal, hd, hs]
      rw [htext]
      exact (hsingle hs).closed
  · have htext : literal v = inDouble v := by simp [literal, hd]
    rw [htext]
    exact (hdouble hd).closed

end XPath

namespace Css

open XPath

variable {u v a : Text} {t : Test} {c : Compound}

/-! ### What is spelled as XML asks for -/

/-- Names are names of XML, and values hold characters of XML alone. -/
def Test.isSpelled : Test → Bool
  | .id v => isXmlText v
  | .classToken v => isXmlText v
  | .present a => Node.isPathName a
  | .compare a _ v => Node.isPathName a && isXmlText v
  | .nthOfType _ => true

/-- **A compound that is spelled** as XML asks for. -/
def Compound.isSpelled (c : Compound) : Bool :=
  (c.tag == ['*'] || Node.isPathName c.tag) && c.tests.all Test.isSpelled

/-- Class names hold no apostrophes, and places are counted in ASCII digits. -/
def Test.isTame : Test → Bool
  | .classToken v => !v.contains '\''
  | .nthOfType digits => digits.all Char.isDigit
  | _ => true

/-- A compound that is read from some text. -/
structure Compound.IsRead (c : Compound) : Prop where
  hasTag : c.HasTag
  tests : ∀ t ∈ c.tests, ∃ u, t.Accepts u

/-! ### Spelled tests are read -/

/-- The literal of a value between blanks is read. -/
lemma exists_reads_padded (v : Text) : ∃ e, Reads 1 0 (paddedLiteral v) e := by
  by_cases hs : '\'' ∈ v
  · rw [paddedLiteral, if_pos (by simpa using hs)]
    exact ⟨_, reads_literal _⟩
  · have htext : paddedLiteral v = inSingle (' ' :: (v ++ [' '])) := by
      rw [paddedLiteral, if_neg (by simpa using hs)]
      change ['\'', ' '] ++ v ++ [' ', '\''] = _
      simp [inSingle]
    rw [htext]
    exact ⟨_, (reads_inSingle (by simp [hs])).lift (Nat.zero_le _) le_rfl⟩

/-- A comparison with any value is read. -/
lemma exists_reads_comparison (how : Comparison) (ha : IsName a) (v : Text) :
    ∃ e, Reads 4 5 (Test.comparisonToXPath a how v) e := by
  obtain ⟨padded, hpadded⟩ := exists_reads_padded v
  have hstart := reads_pathStart ha ((reads_literal v).lift (k := loosest) le_rfl (Nat.zero_le _))
  rw [comparisonToXPath_eq]
  exact ⟨_, how.reads_of ha sign_equals (reads_literal v) hpadded (reads_literal _) hstart⟩

/-- A spelled test is read. -/
lemma Test.exists_reads (h : t.isSpelled = true) (ht : t.isTame = true) (hu : t.Accepts u) :
    ∃ e, Reads 4 5 t.toXPath e := by
  cases t with
  | id v => exact exists_reads_comparison .equals isName_id v
  | classToken v =>
      rw [classToken_toXPath (by simpa [isTame] using ht)]
      exact exists_reads_comparison .hasWord isName_class v
  | present a =>
      exact ⟨_, (reads_attribute (isPathName_iff.mp h)).lift (Nat.zero_le _) (Nat.zero_le _)⟩
  | compare a how v =>
      simp only [isSpelled, Bool.and_eq_true] at h
      exact exists_reads_comparison how (isPathName_iff.mp h.1) v
  | nthOfType digits =>
      cases hu with
      | nthOfType hne =>
          exact ⟨_, (reads_nthOfType ⟨hne, List.all_eq_true.mp ht⟩).lift (Nat.zero_le _) le_rfl⟩

/-- **A spelled compound is read** as a step. -/
lemma Compound.exists_stepReads (h : c.isSpelled = true) (ht : ∀ t ∈ c.tests, t.isTame = true)
    (hc : c.IsRead) : ∃ ps, StepReads 5 c.toXPath .child c.nodeTest ps := by
  simp only [isSpelled, Bool.and_eq_true, Bool.or_eq_true, beq_iff_eq, List.all_eq_true] at h
  have htag : TestReads c.tag .child c.nodeTest := by
    rw [nodeTest]
    split_ifs with hstar
    · rw [hstar]
      exact testReads_star
    · exact testReads_name (isPathName_iff.mp (h.1.resolve_left hstar))
  have htests : ∀ t ∈ c.tests, ∃ e, Reads 4 5 t.toXPath e := by
    intro t hm
    obtain ⟨u, hu⟩ := hc.tests t hm
    exact Test.exists_reads (h.2 t hm) (ht t hm) hu
  rw [toXPath]
  cases hts : c.tests with
  | nil => exact ⟨[], htag.step 5⟩
  | cons t ts =>
      rw [hts, List.forall_mem_cons] at htests
      obtain ⟨⟨e, he⟩, hmore⟩ := htests
      have hany : Nonempty Expr := ⟨e⟩
      choose! expr hexpr using hmore
      have hall : List.Forall₂ (Reads 4 5) (ts.map Test.toXPath) (ts.map expr) := by
        rw [List.forall₂_map_left_iff, List.forall₂_map_right_iff, List.forall₂_same]
        exact hexpr
      have hjoin := Reads.join sign_and he hall
      exact ⟨_, htag.step_predicate (hjoin.lift le_rfl (by decide))⟩

/-! ### Parts of conditions -/

lemma isClosed_paddedLiteral (v : Text) : IsClosed (paddedLiteral v) := by
  rw [paddedLiteral]
  split_ifs with hs
  · exact isClosed_literal _
  · have hv : '\'' ∉ [' '] ++ v ++ [' '] := by simpa using hs
    have h := Outside.literal (P := fun _ => True) (q := '\'') rfl trivial hv
    have htext : "' ".toList ++ v ++ " '".toList = '\'' :: ([' '] ++ v ++ [' ']) ++ ['\''] := by
      have hopen : "' ".toList = '\'' :: [' '] := rfl
      have hclose : " '".toList = [' '] ++ ['\''] := rfl
      rw [hopen, hclose]
      simp only [List.append_assoc, List.cons_append, List.nil_append]
    rw [htext]
    exact h.closed

lemma isXmlText_paddedLiteral (v : Text) : isXmlText (paddedLiteral v) = isXmlText v := by
  have hblanks : ∀ s s', isXmlText s = true → isXmlText s' = true →
      isXmlText (s ++ v ++ s') = isXmlText v := fun s s' hs hs' => by
    rw [isXmlText_append, isXmlText_append, hs, hs', Bool.true_and, Bool.and_true]
  rw [paddedLiteral]
  split_ifs
  · rw [isXmlText_literal]
    exact hblanks [' '] [' '] rfl rfl
  · exact hblanks "' ".toList " '".toList rfl rfl

/-- **A condition** that asks for an attribute, and perhaps for a value: closed texts in front of
the name, behind it and behind a literal of the value. -/
structure Cut (s a v : Text) where
  front : Text
  middle : Text
  literal : Text
  back : Text
  eq : s = front ++ (a ++ (middle ++ (literal ++ back)))
  front_closed : IsClosed front
  middle_closed : IsClosed middle
  literal_closed : IsClosed literal
  back_closed : IsClosed back
  isXmlText_literal : isXmlText literal = isXmlText v

/-- The parts of a comparison. -/
lemma exists_cut (ha : ∀ c ∈ a, isQuote c = false) (how : Comparison) (v : Text) :
    Nonempty (Cut (Test.comparisonToXPath a how v) a v) := by
  have hname : IsClosed a := isClosed_of_no_quote ha
  have hvalue := isClosed_literal v
  have hxml := isXmlText_literal v
  cases how with
  | equals =>
      refine ⟨⟨['@'], ['='], literal v, [], ?_, by decide, by decide, hvalue, by decide, hxml⟩⟩
      change '@' :: a ++ '=' :: literal v = _
      simp
  | startsWith =>
      refine ⟨⟨"starts-with(@".toList, ", ".toList, literal v, [')'], ?_, by decide, by decide,
        hvalue, by decide, hxml⟩⟩
      change "starts-with(@".toList ++ a ++ ", ".toList ++ literal v ++ [')'] = _
      simp only [List.append_assoc]
  | endsWith =>
      refine ⟨⟨"substring(@".toList, ", string-length(@".toList ++ a ++ ") - string-length(".toList,
        literal v, ") + 1) = ".toList ++ literal v, ?_, by decide, ?_, hvalue, ?_, hxml⟩⟩
      · change "substring(@".toList ++ a ++ ", string-length(@".toList ++ a ++
          ") - string-length(".toList ++ literal v ++ ") + 1) = ".toList ++ literal v = _
        simp only [List.append_assoc]
      · have hopen : IsClosed ", string-length(@".toList := by decide
        exact (hopen.append hname).append (by decide)
      · have hopen : IsClosed ") + 1) = ".toList := by decide
        exact hopen.append hvalue
  | contains =>
      refine ⟨⟨"contains(@".toList, ", ".toList, literal v, [')'], ?_, by decide, by decide,
        hvalue, by decide, hxml⟩⟩
      change "contains(@".toList ++ a ++ ", ".toList ++ literal v ++ [')'] = _
      simp only [List.append_assoc]
  | hasWord =>
      refine ⟨⟨"contains(concat(' ', normalize-space(@".toList, "), ' '), ".toList,
        paddedLiteral v, [')'], ?_, by decide, by decide, isClosed_paddedLiteral v, by decide,
        isXmlText_paddedLiteral v⟩⟩
      have hopen : "contains(concat(' ', normalize-space(@".toList =
          "contains(".toList ++ "concat(' ', normalize-space(@".toList := rfl
      have hclose : "), ' '), ".toList = "), ' ')".toList ++ ", ".toList := rfl
      change "contains(".toList ++ ("concat(' ', normalize-space(@".toList ++ a ++
        "), ' ')".toList) ++ ", ".toList ++ paddedLiteral v ++ [')'] = _
      rw [hopen, hclose]
      simp only [List.append_assoc]
  | dash =>
      refine ⟨⟨"(@".toList, ['='], literal v, " or starts-with(@".toList ++ a ++ ", ".toList ++
        literal (v ++ ['-']) ++ "))".toList, ?_, by decide, by decide, hvalue, ?_, hxml⟩⟩
      · change "(@".toList ++ a ++ '=' :: literal v ++ " or starts-with(@".toList ++ a ++
          ", ".toList ++ literal (v ++ ['-']) ++ "))".toList = _
        simp only [List.append_assoc, List.cons_append, List.nil_append]
      · have hopen : IsClosed " or starts-with(@".toList := by decide
        have hbetween : IsClosed ", ".toList := by decide
        exact (((hopen.append hname).append hbetween).append (isClosed_literal _)).append
          (by decide)

namespace Cut

variable {s : Text}

/-- A condition is closed if no quotation mark stands in the name. -/
lemma closed (h : Cut s a v) (ha : ∀ c ∈ a, isQuote c = false) : IsClosed s := by
  rw [h.eq]
  exact h.front_closed.append ((isClosed_of_no_quote ha).append
    (h.middle_closed.append (h.literal_closed.append h.back_closed)))

/-- The name stands outside. -/
lemma outside {P : Char → Prop} (h : Cut s a v) (ha : ∀ c ∈ a, isQuote c = false)
    (hs : Outside P s) : ∀ c ∈ a, P c := by
  rw [h.eq] at hs
  exact ((hs.right h.front_closed).left (isClosed_of_no_quote ha)).of_no_quote ha

/-- The value of an XML text is one, too. -/
lemma isXmlText (h : Cut s a v) (hs : isXmlText s = true) : Text.isXmlText v = true := by
  rw [h.eq] at hs
  simp only [isXmlText_append, h.isXmlText_literal, Bool.and_eq_true] at hs
  exact hs.2.2.2.1

end Cut

/-! ### What an expression may hold -/

/-- No quotation mark stands in a name. -/
lemma isQuote_name (h : isWordName a = true) : ∀ c ∈ a, isQuote c = false := fun c hc => by
  have hinert := isInert_name h c hc
  simp [isQuote, ne_of_isInert (x := '"') hinert rfl, ne_of_isInert (x := '\'') hinert rfl]

/-- A name that an expression may hold is a name of XML. -/
lemma isPathName_of_isToken (h : isWordName a = true) (ha : ∀ c ∈ a, IsToken c) :
    Node.isPathName a = true := by
  cases a with
  | nil => exact absurd h Bool.false_ne_true
  | cons d r =>
      simp only [isWordName, Bool.and_eq_true, List.all_eq_true] at h
      rw [List.forall_mem_cons] at ha
      refine isPathName_iff.mpr ⟨d, r, rfl, ?_, fun c hc => ?_⟩
      · have hstart := h.1
        simp only [isIdentStart, Bool.or_eq_true, beq_iff_eq] at hstart
        rcases hstart with hd | rfl
        · simp [isNameStart, hd]
        · rfl
      · exact (ha.2 c hc).elim (fun hlt => forall_ascii
          (P := fun c => isIdentChar c = true → Text.isNameChar c = true) (by decide +kernel) hlt
            (h.2 c hc)) id

lemma isQuote_digits {digits : Text} (h : ∀ c ∈ digits, Text.isDigit c = true) :
    ∀ c ∈ digits, isQuote c = false := fun c hc => by
  have hinert := isInert_of_isDigit (h c hc)
  simp [isQuote, ne_of_isInert (x := '"') hinert rfl, ne_of_isInert (x := '\'') hinert rfl]

/-- The condition of a tame test is closed. -/
lemma Test.isClosed_toXPath (ht : t.isTame = true) (hu : t.Accepts u) : IsClosed t.toXPath := by
  have hcompare : ∀ {a : Text} (how : Comparison) (v : Text), (∀ c ∈ a, isQuote c = false) →
      IsClosed (comparisonToXPath a how v) := fun how v ha =>
    let ⟨hcut⟩ := exists_cut ha how v
    hcut.closed ha
  cases hu with
  | @id v => exact hcompare .equals v (a := "id".toList) (by decide)
  | @classToken v =>
      rw [classToken_toXPath (by simpa [isTame] using ht)]
      exact hcompare .hasWord v (by decide)
  | present ha =>
      have hat : IsClosed ['@'] := rfl
      exact hat.append (isClosed_of_no_quote (isQuote_name ha))
  | compare ha => exact hcompare _ _ (isQuote_name ha)
  | nthOfType _ hd =>
      have hposition : IsClosed "position()=".toList := by decide
      exact hposition.append (isClosed_of_no_quote (isQuote_digits hd))

/-- A test whose condition an expression may hold is spelled as XML asks for. -/
lemma Test.isSpelled_of_outside (ht : t.isTame = true) (hu : t.Accepts u)
    (hs : Outside IsToken t.toXPath) (hx : isXmlText t.toXPath = true) : t.isSpelled = true := by
  have hcompare : ∀ {a : Text} {how : Comparison} {v : Text}, (∀ c ∈ a, isQuote c = false) →
      isXmlText (comparisonToXPath a how v) = true → isXmlText v = true := fun ha h =>
    let ⟨hcut⟩ := exists_cut ha _ _
    hcut.isXmlText h
  cases hu with
  | @id v =>
      have hid : isXmlText (comparisonToXPath "id".toList .equals v) = true := hx
      exact hcompare (by decide) hid
  | @classToken v =>
      rw [classToken_toXPath (by simpa [isTame] using ht)] at hx
      exact hcompare (by decide) hx
  | present ha =>
      have hat : IsClosed ['@'] := rfl
      exact isPathName_of_isToken ha ((hs.right (s := ['@']) hat).of_no_quote (isQuote_name ha))
  | @compare a bs bs' raw how ha =>
      obtain ⟨hcut⟩ := exists_cut (isQuote_name ha) how (unquote raw)
      rw [isSpelled, Bool.and_eq_true]
      exact ⟨isPathName_of_isToken ha (hcut.outside (isQuote_name ha) hs), hcut.isXmlText hx⟩
  | nthOfType => rfl

/-- The parts of a compound with tests. -/
lemma Compound.toXPath_of_ne_nil (hne : c.tests ≠ []) : c.toXPath =
    c.tag ++ (['['] ++ (join " and ".toList (c.tests.map Test.toXPath) ++ [']'])) := by
  rw [toXPath, if_neg (by simpa using hne), List.append_assoc]
  rfl

lemma Compound.IsRead.isQuote_tag (hc : c.IsRead) : ∀ d ∈ c.tag, isQuote d = false := by
  rcases hc.hasTag with hstar | hname
  · rw [hstar]
    decide
  · exact isQuote_name hname

/-- The conditions of tame tests are closed. -/
lemma Compound.isClosed_tests (ht : ∀ t ∈ c.tests, t.isTame = true) (hc : c.IsRead) :
    ∀ s ∈ c.tests.map Test.toXPath, IsClosed s := by
  rw [List.forall_mem_map]
  exact fun t hm =>
    let ⟨_, hu⟩ := hc.tests t hm
    Test.isClosed_toXPath (ht t hm) hu

lemma isClosed_and : IsClosed " and ".toList := by decide

/-- The step of a tame compound is closed. -/
lemma Compound.isClosed_toXPath (ht : ∀ t ∈ c.tests, t.isTame = true) (hc : c.IsRead) :
    IsClosed c.toXPath := by
  have htag : IsClosed c.tag := isClosed_of_no_quote hc.isQuote_tag
  by_cases hnil : c.tests = []
  · rw [toXPath, hnil]
    exact htag
  · have hopen : IsClosed ['['] := rfl
    have hjoin := isClosed_join isClosed_and (isClosed_tests ht hc)
    rw [toXPath_of_ne_nil hnil]
    exact htag.append (hopen.append (hjoin.append rfl))

/-- **A compound whose step an expression may hold** is spelled as XML asks for. -/
lemma Compound.isSpelled_of_outside (ht : ∀ t ∈ c.tests, t.isTame = true) (hc : c.IsRead)
    (hs : Outside IsToken c.toXPath) (hx : isXmlText c.toXPath = true) : c.isSpelled = true := by
  have hquote := hc.isQuote_tag
  have htag : IsClosed c.tag := isClosed_of_no_quote hquote
  have hname : Outside IsToken c.tag → (c.tag == ['*'] || Node.isPathName c.tag) = true := by
    intro h
    rcases hc.hasTag with hstar | hword
    · simp [hstar]
    · simp [isPathName_of_isToken hword (h.of_no_quote hquote)]
  rw [isSpelled, Bool.and_eq_true]
  by_cases hnil : c.tests = []
  · rw [toXPath, hnil] at hs
    exact ⟨hname hs, by rw [hnil]; rfl⟩
  · have hclosed := isClosed_tests ht hc
    have hopen : IsClosed ['['] := rfl
    rw [toXPath_of_ne_nil hnil] at hs hx
    have htests := (((hs.right htag).right hopen).left (isClosed_join isClosed_and hclosed)).of_join
      isClosed_and hclosed
    simp only [isXmlText_append, Bool.and_eq_true] at hx
    rw [isXmlText_join (by rfl), List.all_map, List.all_eq_true] at hx
    refine ⟨hname (hs.left htag), List.all_eq_true.mpr fun t hm => ?_⟩
    obtain ⟨u, hu⟩ := hc.tests t hm
    exact Test.isSpelled_of_outside (ht t hm) hu (htests _ (List.mem_map_of_mem hm))
      (hx.2.2.1 t hm)

/-- The condition of a spelled test is an XML text. -/
lemma Test.isXmlText_of_isSpelled (h : t.isSpelled = true) (ht : t.isTame = true) :
    isXmlText t.toXPath = true := by
  have hcompare : ∀ (how : Comparison) {a v : Text}, isXmlText a = true → isXmlText v = true →
      isXmlText (comparisonToXPath a how v) = true := by
    intro how a v ha hv
    rw [comparisonToXPath_eq]
    exact how.isXmlText_text isSound_pathSpelling ha hv
  have hname : ∀ {a : Text}, Node.isPathName a = true → isXmlText a = true := fun ha =>
    isXmlText_of_isName (isPathName_iff.mp ha)
  cases t with
  | id v => exact hcompare .equals (a := "id".toList) rfl h
  | classToken v =>
      rw [classToken_toXPath (by simpa [isTame] using ht)]
      exact hcompare .hasWord rfl h
  | present a =>
      change isXmlText (['@'] ++ a) = true
      rw [isXmlText_append, hname h]
      rfl
  | compare a how v =>
      simp only [isSpelled, Bool.and_eq_true] at h
      exact hcompare how (hname h.1) h.2
  | nthOfType digits =>
      change isXmlText ("position()=".toList ++ digits) = true
      rw [isXmlText_append, isXmlText_digits ht]
      rfl

/-- The step of a spelled compound is an XML text. -/
lemma Compound.isXmlText_of_isSpelled (h : c.isSpelled = true)
    (ht : ∀ t ∈ c.tests, t.isTame = true) : isXmlText c.toXPath = true := by
  simp only [isSpelled, Bool.and_eq_true, Bool.or_eq_true, beq_iff_eq, List.all_eq_true] at h
  have htag : isXmlText c.tag = true := by
    rcases h.1 with hstar | hname
    · rw [hstar]
      rfl
    · exact isXmlText_of_isName (isPathName_iff.mp hname)
  by_cases hnil : c.tests = []
  · rw [toXPath, hnil]
    exact htag
  · have htests : (c.tests.map Test.toXPath).all isXmlText = true := by
      rw [List.all_map, List.all_eq_true]
      exact fun t hm => Test.isXmlText_of_isSpelled (h.2 t hm) (ht t hm)
    rw [toXPath_of_ne_nil hnil, isXmlText_append, isXmlText_append, isXmlText_append, htag,
      isXmlText_join (by rfl), htests]
    rfl

/-! ### Chains -/

section Chains

variable {x : Chain} {s : Text}

/-- The path of a chain: two slashes lead to the first step. -/
lemma Chain.toXPath_cons (first : Step) (rest : List Step) :
    Chain.toXPath (first :: rest) =
      chainText Compound.toXPath (⟨.descendant, first.compound⟩ :: rest) := by
  rw [Chain.toXPath, chainText, List.flatMap_cons, List.append_assoc, List.append_assoc]
  rfl

/-- How the first step is led to does not count. -/
lemma forall_compound_iff {Q : Compound → Prop} {first : Step} {rest : List Step} :
    (∀ s ∈ (⟨.descendant, first.compound⟩ :: rest : List Step), Q s.compound) ↔
      ∀ s ∈ first :: rest, Q s.compound := by
  rw [List.forall_mem_cons, List.forall_mem_cons]

/-- A chain is read if its compounds are. -/
lemma Chain.exists_reads (hne : x ≠ [])
    (h : ∀ s ∈ x, ∃ ps, StepReads 5 s.compound.toXPath .child s.compound.nodeTest ps) :
    ∃ e, Reads 5 0 x.toXPath e := by
  obtain ⟨first, rest, rfl⟩ := List.exists_cons_of_ne_nil hne
  rw [← forall_compound_iff
    (Q := fun c => ∃ ps, StepReads 5 c.toXPath .child c.nodeTest ps)] at h
  choose! predicates hps using fun (c : Compound)
    (hc : ∃ ps, StepReads 5 c.toXPath .child c.nodeTest ps) => hc
  have hsteps := stepsRead_chain (fun s hs => hps s.compound (h s hs)) .root
  rw [Chain.toXPath_cons]
  exact ⟨_, reads_absolute hsteps (List.cons_ne_nil '/' _)⟩

lemma isClosed_axis (how : Combinator) : IsClosed (Chain.axis how) := by
  cases how <;> decide

/-- The path of a chain of closed steps is closed. -/
lemma Chain.isClosed_toXPath (h : ∀ s ∈ x, IsClosed s.compound.toXPath) : IsClosed x.toXPath := by
  cases x with
  | nil => rfl
  | cons first rest =>
      rw [← forall_compound_iff (Q := fun c => IsClosed c.toXPath)] at h
      rw [Chain.toXPath_cons]
      exact isClosed_flatMap fun s hs => (isClosed_axis _).append (h s hs)

/-- What an expression may hold as a chain it may hold as the steps. -/
lemma Chain.outside_toXPath {P : Char → Prop} (hs : Outside P x.toXPath)
    (h : ∀ s ∈ x, IsClosed s.compound.toXPath) : ∀ s ∈ x, Outside P s.compound.toXPath := by
  cases x with
  | nil => simp
  | cons first rest =>
      rw [← forall_compound_iff (Q := fun c => IsClosed c.toXPath)] at h
      rw [← forall_compound_iff (Q := fun c => Outside P c.toXPath)]
      rw [Chain.toXPath_cons] at hs
      have hsteps := hs.of_flatMap fun s hs => (isClosed_axis s.combinator).append (h s hs)
      exact fun s hs => (hsteps s hs).right (isClosed_axis _)

/-- The path of a chain is an XML text exactly if its steps are. -/
lemma Chain.isXmlText_toXPath_iff :
    isXmlText x.toXPath = true ↔ ∀ s ∈ x, isXmlText s.compound.toXPath = true := by
  cases x with
  | nil => simp [Chain.toXPath, isXmlText]
  | cons first rest =>
      rw [← forall_compound_iff (Q := fun c => isXmlText c.toXPath = true), Chain.toXPath_cons,
        chainText, isXmlText, List.all_flatMap, List.all_eq_true]
      refine forall₂_congr fun s _ => ?_
      have haxis : isXmlText (Chain.axis s.combinator) = true := by cases s.combinator <;> rfl
      change isXmlText (_ ++ _) = true ↔ _
      rw [isXmlText_append, haxis, Bool.true_and]

end Chains

/-! ### Selectors -/

/-- The chains of a selector: those of its groups that are read. -/
def chains (v : Value) : List Chain :=
  (groups (strip v.textOrEmpty)).filterMap fun g => (readGroup g).toOption

/-- The path of a selector is the union of the paths of its chains, of which there is one at
least. -/
lemma toXPath_eq_ok_iff {v : Value} {p : Text} : toXPath v = .ok p ↔
    chains v ≠ [] ∧ p = join " | ".toList ((chains v).map Chain.toXPath) := by
  have hpaths : ∀ gs : List Text, gs.filterMap (fun g => (groupToXPath g).toOption) =
      (gs.filterMap fun g => (readGroup g).toOption).map Chain.toXPath := by
    intro gs
    rw [List.map_filterMap]
    refine congrArg (List.filterMap · gs) (funext fun g => ?_)
    rw [groupToXPath]
    cases readGroup g <;> rfl
  rw [toXPath, chains]
  split_ifs with hempty
  · have hnil : strip v.textOrEmpty = [] := by simpa using hempty
    rw [hnil]
    simp [show groups [] = [] from rfl]
  · rw [hpaths]
    generalize (groups (strip v.textOrEmpty)).filterMap (fun g => (readGroup g).toOption) = xs
    cases xs with
    | nil => simp
    | cons x xs =>
        simp only [List.map_cons, Except.ok.injEq, ne_eq, reduceCtorEq, not_false_eq_true, true_and]
        exact eq_comm

/-- The chains of a selector are accepted for some text each. -/
lemma exists_accepts {v : Value} {x : Chain} (hx : x ∈ chains v) : ∃ s, x.Accepts s := by
  obtain ⟨g, -, hg⟩ := List.mem_filterMap.mp hx
  refine ⟨g, readGroup_eq_ok_iff.mp ?_⟩
  cases hread : readGroup g with
  | error e => simp [hread, Except.toOption] at hg
  | ok y =>
      rw [hread] at hg
      exact congrArg _ (Option.some.inj hg)

lemma Compound.isRead_of_writes {s : Text} (htag : c.HasTag) (h : c.Writes Test.Accepts s) :
    c.IsRead where
  hasTag := htag
  tests t ht := by
    obtain ⟨us, hus, -⟩ := h
    obtain ⟨i, hi, rfl⟩ := List.mem_iff_getElem.mp ht
    rw [List.forall₂_iff_get] at hus
    exact ⟨_, hus.2 i hi (hus.1 ▸ hi)⟩

/-- The compounds of an accepted chain are read. -/
lemma Chain.Accepts.isRead {x : Chain} {s : Text} (h : x.Accepts s) :
    ∀ s ∈ x, s.compound.IsRead := by
  obtain ⟨-, ts, -, hts⟩ := h
  intro step hstep
  obtain ⟨i, hi, rfl⟩ := List.mem_iff_getElem.mp hstep
  rw [List.forall₂_iff_get] at hts
  have hread := hts.2 i hi (hts.1 ▸ hi)
  exact Compound.isRead_of_writes hread.hasTag hread.writes

/-- **The path of a selector is an expression** exactly if its compounds are spelled as XML asks
for, in selectors whose class names hold no apostrophes and whose places are counted in ASCII
digits. -/
theorem isExpression_toXPath_iff {v : Value} {p : Text} (h : toXPath v = .ok p)
    (ht : ∀ x ∈ chains v, ∀ s ∈ x, ∀ t ∈ s.compound.tests, t.isTame = true) :
    isExpression p = .ok true ↔ ∀ x ∈ chains v, ∀ s ∈ x, s.compound.isSpelled = true := by
  obtain ⟨hne, rfl⟩ := toXPath_eq_ok_iff.mp h
  have haccepts : ∀ x ∈ chains v, ∃ s, x.Accepts s := fun x hx => exists_accepts hx
  have hread : ∀ x ∈ chains v, ∀ s ∈ x, s.compound.IsRead := fun x hx =>
    let ⟨_, hs⟩ := haccepts x hx
    hs.isRead
  have hbar : isXmlText " | ".toList = true := rfl
  rw [isExpression_iff, isXmlText_join hbar, List.all_map, List.all_eq_true]
  constructor
  · rintro ⟨hxml, e, he⟩ x hx s hs
    have hsteps : ∀ x ∈ chains v, ∀ s ∈ x, IsClosed s.compound.toXPath := fun x hx s hs =>
      Compound.isClosed_toXPath (ht x hx s hs) (hread x hx s hs)
    have hchains : ∀ q ∈ (chains v).map Chain.toXPath, IsClosed q := by
      rw [List.forall_mem_map]
      exact fun x hx => Chain.isClosed_toXPath (hsteps x hx)
    have hpath := (outside_of_read? he).of_join (by decide) hchains _ (List.mem_map_of_mem hx)
    exact Compound.isSpelled_of_outside (ht x hx s hs) (hread x hx s hs)
      (Chain.outside_toXPath hpath (hsteps x hx) s hs)
      (Chain.isXmlText_toXPath_iff.mp (hxml x hx) s hs)
  · intro hspelled
    refine ⟨fun x hx => Chain.isXmlText_toXPath_iff.mpr fun s hs =>
      Compound.isXmlText_of_isSpelled (hspelled x hx s hs) (ht x hx s hs), ?_⟩
    have hpaths : ∀ x ∈ chains v, ∃ e, Reads 5 0 x.toXPath e := fun x hx =>
      let ⟨_, hs⟩ := haccepts x hx
      Chain.exists_reads hs.ne_nil fun s hs =>
        Compound.exists_stepReads (hspelled x hx s hs) (ht x hx s hs) (hread x hx s hs)
    have hany : Nonempty Expr := ⟨.root⟩
    choose! expr hexpr using hpaths
    obtain ⟨x, xs, hxs⟩ := List.exists_cons_of_ne_nil hne
    rw [hxs, List.forall_mem_cons] at hexpr
    have hall : List.Forall₂ (Reads 5 0) (xs.map Chain.toXPath) (xs.map expr) := by
      rw [List.forall₂_map_left_iff, List.forall₂_map_right_iff, List.forall₂_same]
      exact hexpr.2
    have hjoin := Reads.join sign_bar hexpr.1 hall
    rw [hxs]
    exact ⟨_, (hjoin.lift le_rfl (by decide)).read? (by decide)⟩

/-- A selector of two groups with a value that holds both quotation marks. -/
def markedSelector : Text := "#e, a[b=x'\x22y] > d.c:nth-of-type(2)".toList

/-- The path of a selector with a value that holds both quotation marks. -/
def markedPath : Text :=
  "//*[@id=\x22e\x22] | //a[@b=concat(\x22x'\x22, '\x22', \x22y\x22)]".toList ++
    "/d[contains(concat(' ', normalize-space(@class), ' '), ' c ') and position()=2]".toList

/-- A value may hold both quotation marks. -/
theorem isExpression_markedPath :
    (toXPath (.text markedSelector) = .ok markedPath ∧
      ∀ x ∈ chains (.text markedSelector), ∀ s ∈ x, ∀ t ∈ s.compound.tests, t.isTame = true) ∧
      isExpression markedPath = .ok true := by
  have hpath : toXPath (.text markedSelector) = .ok markedPath := rfl
  have htame : ∀ x ∈ chains (.text markedSelector), ∀ s ∈ x, ∀ t ∈ s.compound.tests,
      t.isTame = true := by decide
  exact ⟨⟨hpath, htame⟩, (isExpression_toXPath_iff hpath htame).mpr (by decide)⟩

/-- A class name with an apostrophe. -/
def apostropheClass : Compound := ⟨['*'], [.classToken "a'b".toList]⟩

/-- **An apostrophe in a class name** ends the literal that it stands in, and an identifier may
hold characters that are none of XML: such paths are no expressions. -/
theorem isExpression_apostropheClass :
    (toXPath (.text ".a'b".toList) = .ok ("//".toList ++ apostropheClass.toXPath) ∧
      isExpression ("//".toList ++ apostropheClass.toXPath) ≠ .ok true) ∧
    toXPath (.text ['#', Char.ofNat 1]) = .ok ("//*[@id=\x22".toList ++ [Char.ofNat 1, '"', ']']) ∧
      isExpression ("//*[@id=\x22".toList ++ [Char.ofNat 1, '"', ']']) ≠ .ok true := by
  have hchains : chains (.text ".a'b".toList) = [[⟨.descendant, apostropheClass⟩]] := rfl
  refine ⟨⟨toXPath_eq_ok_iff.mpr ?_, fun h => ?_⟩, rfl, fun h => ?_⟩
  · rw [hchains]
    exact ⟨List.cons_ne_nil _ _, (List.append_nil _).symm⟩
  · obtain ⟨-, e, he⟩ := isExpression_iff.mp h
    exact absurd (outside_of_read? he).closed (by decide)
  · exact absurd (isExpression_iff.mp h).1 (by decide)

end Css

end Locator
