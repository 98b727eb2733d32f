/-
The normal form of a path text

* `squeeze_squeeze`, `normalize_normalize`: a normal form is its own;
* `normalize_of_ends`: between ends that stay only runs of slashes are
  shortened;
* `slashed`: steps behind a slash each; `normalize_slashed`: in their normal form
  stand the `keptSteps`;
* `squeeze_literal`: **the literal of a text** is shortened to that of the
  shortened text, and with it the path by an attribute
  (`normalize_attributePath_eq`, `normalize_attributePath`).
-/
import Locator.XPath.Normal
import Locator.XPath.Literal
import Locator.Proofs.Text.Name
import Locator.Proofs.Text.Strip
import Locator.Proofs.Text.Words

namespace Locator

namespace XPath

/-! ### Runs of slashes -/

@[simp]
lemma squeeze_nil : squeeze [] = [] := rfl

/-- Another character ends the run of slashes in front of it. -/
lemma squeezeFrom_append_cons {c : Char} (hc : c ≠ '/') (k : ℕ) (s t : Text) :
    squeezeFrom k (s ++ c :: t) = squeezeFrom k s ++ c :: squeeze t := by
  induction s generalizing k with
  | nil => simp [squeezeFrom, hc, squeeze]
  | cons b s ih =>
      rw [List.cons_append, squeezeFrom, squeezeFrom, ih, ih, ih]
      split_ifs <;> rfl

lemma squeeze_cons {c : Char} (hc : c ≠ '/') (s : Text) : squeeze (c :: s) = c :: squeeze s :=
  squeezeFrom_append_cons hc 0 [] s

/-- Behind a text that ends in no slash no run is open. -/
lemma squeeze_append {s : Text} (h : ∀ c ∈ s.getLast?, c ≠ '/') (t : Text) :
    squeeze (s ++ t) = squeeze s ++ squeeze t := by
  rcases List.eq_nil_or_concat s with rfl | ⟨u, c, rfl⟩
  · rfl
  · have hc : c ≠ '/' := h c (by simp)
    have h1 := squeezeFrom_append_cons hc 0 u t
    have h2 : squeezeFrom 0 (u ++ [c]) = squeezeFrom 0 u ++ [c] :=
      squeezeFrom_append_cons hc 0 u []
    simpa [squeeze, h2] using h1

/-- Without slashes there is nothing to shorten. -/
lemma squeezeFrom_eq_self {s : Text} (h : '/' ∉ s) (k : ℕ) : squeezeFrom k s = s := by
  induction s generalizing k with
  | nil => rfl
  | cons c s ih =>
      have hc : c ≠ '/' := fun hc => h (by simp [hc])
      simp [squeezeFrom, hc, ih fun hm => h (by simp [hm])]

/-- What has been shortened stays as it is. -/
lemma squeezeFrom_squeezeFrom (s : Text) (k : ℕ) :
    squeezeFrom k (squeezeFrom k s) = squeezeFrom k s := by
  induction s generalizing k with
  | nil => rfl
  | cons c s ih =>
      rw [squeezeFrom]
      split_ifs with hc hk
      · simp [squeezeFrom, hk, ih]
      · exact ih k
      · simp [squeezeFrom, hc, ih]

theorem squeeze_squeeze (s : Text) : squeeze (squeeze s) = squeeze s :=
  squeezeFrom_squeezeFrom s 0

/-- The first character stays. -/
lemma head?_squeeze (s : Text) : (squeeze s).head? = s.head? := by
  cases s with
  | nil => rfl
  | cons c s =>
      rw [squeeze, squeezeFrom]
      split_ifs with hc h2
      · simp [beq_iff_eq.mp hc]
      · exact absurd Nat.zero_lt_two h2
      · rfl

lemma squeeze_eq_nil_iff {s : Text} : squeeze s = [] ↔ s = [] := by
  rw [← List.head?_eq_none_iff, head?_squeeze, List.head?_eq_none_iff]

/-- The last character stays if it is no slash. -/
lemma getLast?_squeeze {s : Text} (h : ∀ c ∈ s.getLast?, c ≠ '/') :
    (squeeze s).getLast? = s.getLast? := by
  rcases List.eq_nil_or_concat s with rfl | ⟨u, c, rfl⟩
  · rfl
  · have hc : c ≠ '/' := h c (by simp)
    rw [List.concat_eq_append, squeeze, squeezeFrom_append_cons hc]
    simp

/-- Other characters stay. -/
lemma mem_squeezeFrom {c : Char} (hc : c ≠ '/') {s : Text} (k : ℕ) :
    c ∈ squeezeFrom k s ↔ c ∈ s := by
  induction s generalizing k with
  | nil => rfl
  | cons b s ih =>
      rw [squeezeFrom]
      split_ifs with hb
      · obtain rfl := beq_iff_eq.mp hb
        simp [ih, hc]
      · obtain rfl := beq_iff_eq.mp hb
        simp [ih, hc]
      · simp [ih]

/-- Slashes are left out, and nothing else happens. -/
lemma squeezeFrom_sublist (k : ℕ) (s : Text) : (squeezeFrom k s).Sublist s := by
  induction s generalizing k with
  | nil => exact List.Sublist.refl _
  | cons c s ih =>
      rw [squeezeFrom]
      split_ifs with hc
      · obtain rfl : c = '/' := by simpa using hc
        exact (ih _).cons_cons _
      · exact (ih _).cons _
      · exact (ih _).cons_cons _

/-! ### Texts that are not shortened -/

/-- A run of slashes that is shortened. -/
def slashes : Text := ['/', '/', '/']

/-- Behind a run that is not too long a text stays as it is if no run in it or up to it
is. -/
lemma squeezeFrom_eq_self_iff {k : ℕ} (hk : k ≤ 2) (s : Text) :
    squeezeFrom k s = s ↔ ¬ slashes <:+: List.replicate k '/' ++ s := by
  induction s generalizing k with
  | nil =>
      simp only [squeezeFrom, List.append_nil, true_iff]
      intro h
      have := h.length_le
      simp only [slashes, List.length_cons, List.length_nil, List.length_replicate] at this
      omega
  | cons c s ih =>
      by_cases hc : c = '/'
      · have hrun : List.replicate k '/' ++ c :: s = List.replicate (k + 1) '/' ++ s := by
          rw [hc, List.replicate_succ', List.append_assoc]
          rfl
        by_cases hlt : k < 2
        · rw [squeezeFrom, if_pos (by simpa using hc), if_pos hlt, hrun, ← ih (by omega), hc]
          simp
        · obtain rfl : k = 2 := by omega
          rw [squeezeFrom, if_pos (by simpa using hc), if_neg hlt, hrun]
          refine iff_of_false (fun h => ?_) (not_not_intro (List.prefix_append _ _).isInfix)
          have hle := (squeezeFrom_sublist 2 s).length_le
          rw [h, List.length_cons] at hle
          omega
      · have hrun : slashes <:+: List.replicate k '/' ++ c :: s ↔ slashes <:+: s := by
          interval_cases k <;>
            simp [slashes, List.infix_cons_iff, List.cons_prefix_cons, List.replicate, Ne.symm hc]
        have hzero := ih (k := 0) (by omega)
        rw [List.replicate_zero, List.nil_append] at hzero
        rw [squeezeFrom, if_neg (by simpa using hc), hrun, ← hzero]
        simp

/-- **A text is not shortened** if it holds no run of three slashes. -/
theorem squeeze_eq_self_iff {s : Text} : squeeze s = s ↔ ¬ slashes <:+: s :=
  squeezeFrom_eq_self_iff (Nat.zero_le 2) s

/-- Nothing in a text that is not shortened is. -/
lemma squeeze_of_infix {s t : Text} (h : squeeze s = s) (ht : t <:+: s) : squeeze t = t :=
  squeeze_eq_self_iff.mpr fun hm => squeeze_eq_self_iff.mp h (hm.trans ht)

/-! ### Normal forms -/

lemma isSlashOrBlank_slash : isSlashOrBlank '/' = true := rfl

lemma isSlashOrBlank_of_isBlank {c : Char} (h : Text.isBlank c = true) :
    isSlashOrBlank c = true := by
  simp [isSlashOrBlank, h]

lemma normalize_eq (s : Text) :
    normalize s = squeeze (Text.dropEnd isSlashOrBlank (s.dropWhile Text.isBlank)) := by
  rw [normalize, Text.strip, Text.stripBy,
    Text.dropEnd_dropEnd fun _ => isSlashOrBlank_of_isBlank]

@[simp]
lemma normalize_nil : normalize [] = [] := rfl

/-- A text without a blank in front is shortened at its end alone. -/
lemma normalize_of_head {s : Text} (h : ∀ c ∈ s.head?, Text.isBlank c = false) :
    normalize s = squeeze (Text.dropEnd isSlashOrBlank s) := by
  rw [normalize_eq]
  cases s with
  | nil => rfl
  | cons c s =>
      have hc := h c rfl
      simp [hc]

/-- Between ends that stay only runs of slashes are shortened. -/
lemma normalize_of_ends {s : Text} (h : ∀ c ∈ s.head?, Text.isBlank c = false)
    (hl : ∀ c ∈ s.getLast?, isSlashOrBlank c = false) : normalize s = squeeze s := by
  rw [normalize_of_head h, Text.dropEnd_eq_self hl]

/-- A normal form is what is left of the text. -/
lemma normalize_sublist (s : Text) : (normalize s).Sublist s :=
  (squeezeFrom_sublist 0 _).trans ((Text.dropEnd_sublist _ _).trans (Text.strip_sublist s))

/-- A normal form starts with no blank. -/
lemma head?_normalize (s : Text) : ∀ c ∈ (normalize s).head?, Text.isBlank c = false := by
  intro c hc
  rw [normalize_eq, head?_squeeze] at hc
  obtain ⟨t, ht⟩ := List.rdropWhile_prefix isSlashOrBlank (s.dropWhile Text.isBlank)
  have hhead : (s.dropWhile Text.isBlank).head? = some c := by
    rw [← ht, List.head?_append]
    simp [← Text.dropEnd_eq, Option.mem_def.mp hc]
  simpa [hhead] using List.head?_dropWhile_not Text.isBlank s

/-- A normal form ends in neither a slash nor a blank. -/
lemma getLast?_normalize (s : Text) : ∀ c ∈ (normalize s).getLast?, isSlashOrBlank c = false := by
  have hlast : ∀ c ∈ (Text.dropEnd isSlashOrBlank (s.dropWhile Text.isBlank)).getLast?,
      isSlashOrBlank c = false := Text.getLast?_dropEnd
  have hne : ∀ c ∈ (Text.dropEnd isSlashOrBlank (s.dropWhile Text.isBlank)).getLast?, c ≠ '/' := by
    rintro c hc rfl
    simpa [isSlashOrBlank_slash] using hlast _ hc
  rwa [normalize_eq, getLast?_squeeze hne]

/-- **A normal form** is its own. -/
theorem normalize_normalize (s : Text) : normalize (normalize s) = normalize s := by
  rw [normalize_of_ends (head?_normalize s) (getLast?_normalize s), normalize_eq, squeeze_squeeze]

lemma isTrim_normalize (h : normalize s ≠ []) : Text.IsTrim (normalize s) where
  ne_nil := h
  head := head?_normalize s
  last c hc := by
    have hc := getLast?_normalize s c hc
    rw [isSlashOrBlank, Bool.or_eq_false_iff] at hc
    exact hc.2

/-! ### Steps behind slashes -/

/-- Steps behind a slash each, the innermost first. -/
def slashed (steps : List Text) : Text := steps.reverse.flatMap ('/' :: ·)

lemma slashed_cons (s : Text) (ss : List Text) : slashed (s :: ss) = slashed ss ++ '/' :: s := by
  simp [slashed]

/-- The steps as a path from the document. -/
lemma path_reverse {ss : List Text} (h : ss ≠ []) : path ['/'] ss.reverse = slashed ss := by
  obtain ⟨s, t, hst⟩ := List.exists_cons_of_ne_nil (List.reverse_ne_nil_iff.mpr h)
  rw [path, slashed, hst, Text.join_cons]
  rfl

variable {s : Text} {ss : List Text}

lemma getLast?_slashed_cons (h : s ≠ []) : (slashed (s :: ss)).getLast? = s.getLast? := by
  rw [slashed_cons, List.getLast?_append, List.getLast?_cons_of_ne_nil h,
    List.getLast?_eq_some_getLast h]
  rfl

/-- Steps in slashes are no longer shortened. -/
lemma squeeze_slashed (h : ∀ s ∈ ss, s ≠ [] ∧ '/' ∉ s) : squeeze (slashed ss) = slashed ss := by
  induction ss with
  | nil => rfl
  | cons s ss ih =>
      have hs : squeeze ('/' :: s) = '/' :: s := by
        simp [squeeze, squeezeFrom, squeezeFrom_eq_self (h s (by simp)).2]
      rw [slashed_cons]
      cases ss with
      | nil => exact hs
      | cons t ss =>
          have hlast : ∀ c ∈ (slashed (t :: ss)).getLast?, c ≠ '/' := by
            obtain ⟨ht, hslash⟩ := h t (by simp)
            rintro c hc rfl
            rw [getLast?_slashed_cons ht] at hc
            exact hslash (List.mem_of_getLast? hc)
          rw [squeeze_append hlast, hs, ih fun x hx => h x (List.mem_cons_of_mem _ hx)]

/-- The head of steps in slashes is a slash. -/
lemma head?_slashed (ss : List Text) : ∀ c ∈ (slashed ss).head?, c = '/' := by
  intro c hc
  rw [slashed] at hc
  cases h : ss.reverse with
  | nil => simp [h] at hc
  | cons t ts => exact (by simpa [h] using hc : '/' = c).symm

lemma isBlank_head_slashed (ss : List Text) :
    ∀ c ∈ (slashed ss).head?, Text.isBlank c = false := by
  intro c hc
  rw [head?_slashed ss c hc]
  rfl

/-- A slash ends what stands in front of it. -/
lemma eq_of_slashes {a b s t : Text} (ha : '/' ∉ a) (hb : '/' ∉ b) (hs : ∀ c ∈ s.head?, c = '/')
    (ht : ∀ c ∈ t.head?, c = '/') (h : a ++ s = b ++ t) : a = b := by
  have hfront : ∀ {a s : Text}, '/' ∉ a → (∀ c ∈ s.head?, c = '/') →
      (a ++ s).takeWhile (· != '/') = a := by
    intro a s ha hs
    rw [List.takeWhile_append_of_pos fun c hc => by simpa using ne_of_mem_of_not_mem hc ha]
    cases s with
    | nil => simp
    | cons c s => simp [hs c rfl]
  rw [← hfront ha hs, h, hfront hb ht]

/-- **Steps in slashes** lose the blanks at the end of the last step; if it has
nothing else, the steps in front stay alone. -/
theorem normalize_slashed_cons (h : ∀ x ∈ s :: ss, x ≠ [] ∧ '/' ∉ x) :
    normalize (slashed (s :: ss)) =
      if Text.dropEnd Text.isBlank s = [] then normalize (slashed ss)
      else slashed (Text.dropEnd Text.isBlank s :: ss) := by
  have hdrop : Text.dropEnd isSlashOrBlank s = Text.dropEnd Text.isBlank s := by
    refine Text.dropEnd_congr fun c hc => ?_
    have hne : c ≠ '/' := fun hs => (h s (by simp)).2 (hs ▸ hc)
    simp [isSlashOrBlank, hne]
  have hcons : Text.dropEnd isSlashOrBlank ('/' :: s) =
      if Text.dropEnd Text.isBlank s = [] then [] else '/' :: Text.dropEnd Text.isBlank s := by
    have := Text.dropEnd_append isSlashOrBlank ['/'] s
    rw [hdrop] at this
    exact this
  rw [normalize_of_head (isBlank_head_slashed _), normalize_of_head (isBlank_head_slashed _),
    slashed_cons, Text.dropEnd_append, hcons]
  by_cases hq : Text.dropEnd Text.isBlank s = []
  · simp [hq]
  · rw [if_neg hq, if_neg (by simp), ← slashed_cons, if_neg hq, squeeze_slashed]
    intro x hx
    rcases List.mem_cons.mp hx with rfl | hx
    · refine ⟨hq, fun hm => (h s (by simp)).2 ?_⟩
      exact (List.rdropWhile_prefix Text.isBlank s).subset hm
    · exact h x (by simp [hx])

/-- The steps that stay of steps, the innermost first, when the blanks at the end
are dropped. -/
def keptSteps : List Text → List Text
  | [] => []
  | s :: ss =>
    if Text.dropEnd Text.isBlank s = [] then keptSteps ss
    else Text.dropEnd Text.isBlank s :: ss

/-- The normal form of steps in slashes. -/
theorem normalize_slashed (h : ∀ s ∈ ss, s ≠ [] ∧ '/' ∉ s) :
    normalize (slashed ss) = slashed (keptSteps ss) := by
  induction ss with
  | nil => rfl
  | cons s ss ih =>
      rw [normalize_slashed_cons h, keptSteps]
      split_ifs
      · exact ih fun x hx => h x (List.mem_cons_of_mem _ hx)
      · rfl

lemma keptSteps_append (ss ts : List Text) :
    keptSteps (ss ++ ts) = if keptSteps ss = [] then keptSteps ts else keptSteps ss ++ ts := by
  induction ss with
  | nil => rfl
  | cons s ss ih =>
      by_cases hs : Text.dropEnd Text.isBlank s = []
      · simpa [keptSteps, hs] using ih
      · simp [keptSteps, hs]

/-- A last step that ends in no blank stays, and all steps with it. -/
lemma keptSteps_eq_self (hs : s ≠ []) (h : Text.dropEnd Text.isBlank s = s) (ss : List Text) :
    keptSteps (s :: ss) = s :: ss := by
  rw [keptSteps, h, if_neg hs]

/-! ### Literals -/

/-- The parts between marks are shortened one by one. -/
lemma pieces_squeezeFrom {p : Char → Bool} (hp : p '/' = false) (k : ℕ) (s : Text) :
    ∃ h t, Text.pieces p s = h :: t ∧
      Text.pieces p (squeezeFrom k s) = squeezeFrom k h :: t.map squeeze := by
  induction s generalizing k with
  | nil => exact ⟨[], [], rfl, rfl⟩
  | cons c s ih =>
      by_cases hc : p c
      · have hslash : c ≠ '/' := by
          rintro rfl
          simp [hp] at hc
        obtain ⟨h, t, hs, hq⟩ := ih 0
        refine ⟨[], h :: t, by simp [Text.pieces, hc, hs], ?_⟩
        simp [squeezeFrom, hslash, Text.pieces, hc, hq, squeeze]
      · rw [squeezeFrom]
        split_ifs with hslash hk
        · obtain rfl := beq_iff_eq.mp hslash
          obtain ⟨h, t, hs, hq⟩ := ih (k + 1)
          exact ⟨'/' :: h, t, by simp [Text.pieces, hc, hs],
            by simp [squeezeFrom, Text.pieces, hc, hq, hk]⟩
        · obtain rfl := beq_iff_eq.mp hslash
          obtain ⟨h, t, hs, hq⟩ := ih k
          exact ⟨'/' :: h, t, by simp [Text.pieces, hc, hs],
            by simp [squeezeFrom, hq, hk]⟩
        · obtain ⟨h, t, hs, hq⟩ := ih 0
          exact ⟨c :: h, t, by simp [Text.pieces, hc, hs],
            by simp [squeezeFrom, Text.pieces, hc, hq, hslash]⟩

lemma pieces_squeeze {p : Char → Bool} (hp : p '/' = false) (s : Text) :
    Text.pieces p (squeeze s) = (Text.pieces p s).map squeeze := by
  obtain ⟨h, t, hs, hq⟩ := pieces_squeezeFrom hp 0 s
  rw [squeeze, hq, hs]
  rfl

lemma squeeze_inDouble (s : Text) : squeeze (inDouble s) = inDouble (squeeze s) := by
  rw [inDouble, List.cons_append, squeeze_cons (by decide), squeeze,
    squeezeFrom_append_cons (by decide)]
  rfl

lemma squeeze_inSingle (s : Text) : squeeze (inSingle s) = inSingle (squeeze s) := by
  rw [inSingle, List.cons_append, squeeze_cons (by decide), squeeze,
    squeezeFrom_append_cons (by decide)]
  rfl

/-- Parts that end in no slash are shortened one by one. -/
lemma squeeze_join {sep : Text} (hsep : squeeze sep = sep) (hl : ∀ c ∈ sep.getLast?, c ≠ '/')
    {parts : List Text} (h : ∀ s ∈ parts, ∀ c ∈ s.getLast?, c ≠ '/') :
    squeeze (Text.join sep parts) = Text.join sep (parts.map squeeze) := by
  induction parts with
  | nil => rfl
  | cons s ss ih =>
      cases ss with
      | nil => simp [Text.join, List.intercalate]
      | cons t ss =>
          have ih := ih fun x hx => h x (List.mem_cons_of_mem _ hx)
          rw [List.map_cons] at ih
          rw [List.map_cons, List.map_cons, Text.join_cons_cons, Text.join_cons_cons,
            List.append_assoc, squeeze_append (h s (by simp)), squeeze_append hl, hsep, ih,
            List.append_assoc]

/-- The arguments that put a text together end in no slash. -/
lemma getLast?_concatArguments (parts : List Text) :
    ∀ s ∈ concatArguments parts, ∀ c ∈ s.getLast?, c ≠ '/' := by
  have hdouble : ∀ t, ∀ c ∈ (inDouble t).getLast?, c ≠ '/' := by
    intro t c hc
    rw [inDouble, List.getLast?_concat] at hc
    simp [← Option.mem_some.mp hc]
  induction parts with
  | nil => simp [concatArguments]
  | cons s ss ih =>
      cases ss with
      | nil =>
          intro x hx
          obtain rfl : x = inDouble s := by simpa [concatArguments] using hx
          exact hdouble s
      | cons t ss =>
          intro x hx
          have hx : x = inDouble s ∨ x = inSingle ['"'] ∨ x ∈ concatArguments (t :: ss) := by
            simpa [concatArguments] using hx
          rcases hx with rfl | rfl | hx
          · exact hdouble s
          · simp [inSingle]
          · exact ih x hx

lemma map_squeeze_concatArguments (parts : List Text) :
    (concatArguments parts).map squeeze = concatArguments (parts.map squeeze) := by
  induction parts with
  | nil => rfl
  | cons s ss ih =>
      cases ss with
      | nil => simp [concatArguments, squeeze_inDouble]
      | cons t ss =>
          have hmark : squeeze (inSingle ['"']) = inSingle ['"'] := rfl
          simp only [concatArguments, List.map_cons, List.intersperse_cons_cons] at ih ⊢
          rw [ih, squeeze_inDouble, hmark]

/-- **The literal of a text** is shortened to that of the shortened text. -/
theorem squeeze_literal (v : Text) : squeeze (literal v) = literal (squeeze v) := by
  have hcontains : ∀ c, c ≠ '/' → (squeeze v).contains c = v.contains c := by
    intro c hc
    rw [Bool.eq_iff_iff, List.contains_iff_mem, List.contains_iff_mem]
    exact mem_squeezeFrom hc 0
  rw [literal, literal, hcontains _ (by decide), hcontains _ (by decide)]
  split_ifs
  · exact squeeze_inDouble v
  · exact squeeze_inSingle v
  · have hopen : squeeze "concat(".toList = "concat(".toList := rfl
    have hclose : ∀ t, squeeze (t ++ [')']) = squeeze t ++ [')'] :=
      fun t => squeezeFrom_append_cons (by decide) 0 t []
    rw [hclose, squeeze_append (by simp), hopen, pieces_squeeze rfl,
      squeeze_join rfl (by simp) (getLast?_concatArguments _), map_squeeze_concatArguments]

lemma attributePath_eq (a v : Text) :
    attributePath a v = "//*[@".toList ++ a ++ ['='] ++ literal v ++ [']'] := rfl

/-- The path by an attribute is shortened inside the name and the value alone. -/
theorem normalize_attributePath_eq (a v : Text) :
    normalize (attributePath a v) = attributePath (squeeze a) (squeeze v) := by
  have hpath : ∀ b w : Text, attributePath b w =
      "//*[@".toList ++ (b ++ '=' :: (literal w ++ [']'])) := fun b w => by
    simp only [attributePath_eq, List.append_assoc, List.cons_append, List.nil_append]
  have hstart : squeeze "//*[@".toList = "//*[@".toList := rfl
  have hclose : squeeze (literal v ++ [']']) = literal (squeeze v) ++ [']'] := by
    have h : squeeze (literal v ++ [']']) = squeeze (literal v) ++ [']'] :=
      squeezeFrom_append_cons (by decide) 0 _ []
    rw [h, squeeze_literal]
  have hname : squeeze (a ++ '=' :: (literal v ++ [']'])) =
      squeeze a ++ '=' :: squeeze (literal v ++ [']']) := squeezeFrom_append_cons (by decide) 0 _ _
  have hhead : ∀ c ∈ (attributePath a v).head?, Text.isBlank c = false := by
    intro c hc
    rw [hpath] at hc
    obtain rfl : '/' = c := Option.some.inj hc
    rfl
  have hlast : ∀ c ∈ (attributePath a v).getLast?, isSlashOrBlank c = false := by
    intro c hc
    rw [attributePath_eq, List.getLast?_concat] at hc
    rw [← Option.mem_some.mp hc]
    rfl
  rw [normalize_of_ends hhead hlast, hpath, squeeze_append (by simp), hstart, hname, hclose, ← hpath]

/-- The path by the name of an attribute is shortened inside the value alone. -/
theorem normalize_attributePath {a : Text} (ha : Text.IsName a) (v : Text) :
    normalize (attributePath a v) = attributePath a (squeeze v) := by
  have hslash : '/' ∉ a := by
    intro h
    have hchar := ha.isNameChar '/' h
    exact absurd hchar (by decide)
  have hname : squeeze a = a := squeezeFrom_eq_self hslash 0
  rw [normalize_attributePath_eq, hname]

end XPath

end Locator
