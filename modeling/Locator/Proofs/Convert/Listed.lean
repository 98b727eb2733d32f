/-
Groups that are converted one by one

* `IsGroupText`: the text of a group, in which quotation marks and brackets are closed and no
  comma stands outside of them;
* `Listed`: groups with commas between them and blanks of any kind around the commas, and
  `groups_listed`: these groups are found again;
* `pathsOf`: the paths of the groups that have one, and `toXPath_listed`: **the path of a list**
  is their union, whatever stands in the groups that have none.
-/
import Locator.Proofs.Convert.Accepted
import Locator.Proofs.Convert.List
import Locator.Proofs.Text.Enclosed

namespace Locator.Css

open Text XPath

variable {g s lead before : Text} {gs : List Text}

/-! ### Texts of groups -/

/-- **The text of a group**: no blank stands at its ends, its quotation marks and brackets are
closed, and there is no comma outside of them. -/
structure IsGroupText (g : Text) : Prop where
  trim : IsTrim g
  closes : (Marks.around ',').Closes 0 g

/-- Groups with a comma between each two of them, perhaps between blanks of any kind. -/
inductive Listed : List Text → Text → Prop
  | one {g : Text} (hg : IsGroupText g) : Listed [g] g
  | cons {g before behind t : Text} {gs : List Text} (hg : IsGroupText g)
      (hb : IsBlanks before) (hb' : IsBlanks behind) (h : Listed gs t) :
      Listed (g :: gs) (g ++ (before ++ ',' :: (behind ++ t)))

/-- No blank stands at the ends of a list. -/
lemma Listed.isTrim (h : Listed gs s) : IsTrim s := by
  induction h with
  | one hg => exact hg.trim
  | @cons g before behind t gs hg _ _ _ ih =>
      have hall := hg.trim.append (before ++ ',' :: behind) ih
      simpa using hall

/-- Blanks close what they open, since they open nothing. -/
lemma closes_blanks (hb : IsBlanks lead) : (Marks.around ',').Closes 0 lead := by
  refine Marks.closes_of_isPlain fun c hc => ?_
  have hne : ∀ {d : Char}, isBlank d = false → c ≠ d := fun hd h => by
    simpa [h, hd] using hb c hc
  constructor
  · simp [Marks.around, hne (d := '"') rfl, hne (d := '\'') rfl]
  · simp [Marks.around, opening, hne (d := '[') rfl, hne (d := '(') rfl]
  · simp [Marks.around, closing, hne (d := ']') rfl, hne (d := ')') rfl]
  · simp [Marks.around, hne (d := ',') rfl]

/-- A group between blanks holds no comma on the outside. -/
lemma passes_part (hl : IsBlanks lead) (hg : IsGroupText g) (hb : IsBlanks before) :
    commas.Passes .outside (lead ++ g ++ before) .outside :=
  (((closes_blanks hl).append hg.closes).append (closes_blanks hb)).passes rfl

/-- The parts of a list are its groups, between blanks. -/
lemma splitTopFrom_listed (h : Listed gs s) (hl : IsBlanks lead) :
    (splitTopFrom [','] 0 .outside (lead ++ s)).map strip = gs := by
  induction h generalizing lead with
  | @one g hg =>
      have hpasses := passes_part hl hg isBlanks_nil
      have hsplit := splitTopFrom_passes hpasses (splitTopFrom_nil [','] .outside)
      simp only [List.append_nil] at hsplit
      rw [hsplit, List.map_singleton]
      simpa using strip_of_isTrim hg.trim hl isBlanks_nil
  | @cons g before behind t gs hg hb hb' _ ih =>
      have hpasses := passes_part hl hg hb
      have hsplit := splitTopFrom_passes hpasses (splitTopFrom_sep rfl [] (behind ++ t))
      have htext : lead ++ (g ++ (before ++ ',' :: (behind ++ t))) =
          lead ++ g ++ before ++ ([','] ++ (behind ++ t)) := by simp
      rw [htext, hsplit, List.map_cons, List.append_nil, ih hb', strip_of_isTrim hg.trim hl hb]

/-- **The groups of a list** are found again. -/
theorem groups_listed (h : Listed gs s) : groups s = gs := by
  have hparts := splitTopFrom_listed h isBlanks_nil
  rw [List.nil_append] at hparts
  have hne : ∀ g ∈ gs, g ≠ [] := by
    clear hparts
    induction h with
    | one hg => simpa using hg.trim.ne_nil
    | cons hg _ _ _ ih => exact List.forall_mem_cons.mpr ⟨hg.trim.ne_nil, ih⟩
  rw [groups, splitTop, hparts, List.filter_eq_self]
  exact fun g hg => by simpa using hne g hg

/-! ### The union of the paths -/

/-- Has a group a path? -/
def isConverted (g : Text) : Bool := (groupToXPath g).toOption.isSome

/-- The paths of the groups that have one. -/
def groupPaths (gs : List Text) : List Text := gs.filterMap fun g => (groupToXPath g).toOption

/-- Groups without a path do not count. -/
lemma groupPaths_filter (gs : List Text) : groupPaths (gs.filter isConverted) = groupPaths gs := by
  rw [groupPaths, List.filterMap_filter]
  refine List.filterMap_congr fun g _ => ?_
  rw [isConverted]
  cases groupToXPath g <;> rfl

/-- There is no path exactly where every group is rejected. -/
lemma groupPaths_eq_nil_iff :
    groupPaths gs = [] ↔ ∀ g ∈ gs, ∃ why, groupToXPath g = .error why := by
  rw [groupPaths, List.filterMap_eq_nil_iff]
  refine forall₂_congr fun g _ => ?_
  cases groupToXPath g <;> simp [Except.toOption]

/-- The path of a list, or the error that no group has one. -/
lemma toXPath_of_listed (h : Listed gs s) : toXPath (.text s) =
    if groupPaths gs = [] then .error (.noGroup s)
    else .ok (join " | ".toList (groupPaths gs)) := by
  have hempty : s.isEmpty = false := by simpa using h.isTrim.ne_nil
  rw [toXPath, textOrEmpty_text, strip_eq_self h.isTrim, groups_listed h, hempty,
    if_neg Bool.false_ne_true]
  rw [groupPaths]
  cases gs.filterMap fun g => (groupToXPath g).toOption <;> rfl

/-- **The path of a list** of groups is the union of the paths of those that have one, in their
order, and there is an error exactly where none has. So groups that have no path may be added and
left out, whatever they hold: this changes nothing for the others. -/
theorem toXPath_listed (h : Listed gs s) :
    (groupPaths gs ≠ [] → toXPath (.text s) = .ok (join " | ".toList (groupPaths gs))) ∧
      (toXPath (.text s) = .error (.noGroup s) ↔
        ∀ g ∈ gs, ∃ why, groupToXPath g = .error why) ∧
      ∀ gs' s', Listed gs' s' → gs'.filter isConverted = gs.filter isConverted →
        (toXPath (.text s')).toOption = (toXPath (.text s)).toOption := by
  refine ⟨fun hne => ?_, ?_, fun gs' s' h' hsame => ?_⟩
  · rw [toXPath_of_listed h, if_neg hne]
  · rw [toXPath_of_listed h, ← groupPaths_eq_nil_iff]
    split_ifs with hnil <;> simp [hnil]
  · have hpaths : groupPaths gs' = groupPaths gs := by
      rw [← groupPaths_filter gs', hsame, groupPaths_filter]
    rw [toXPath_of_listed h, toXPath_of_listed h', hpaths]
    split_ifs <;> rfl

/-- Two groups that are rejected, with marks, brackets and commas in them, and two that have a
path. -/
def mixedGroups : List Text :=
  ["a:is(b,'(c')".toList, "i".toList, "[x=\"],(\"]".toList, "a[t='x,y']".toList]

/-- The paths of the two are joined, and the others change nothing. -/
theorem toXPath_mixedGroups :
    Listed mixedGroups "a:is(b,'(c')\x0b,\n i,[x=\"],(\"]\t, a[t='x,y']".toList ∧
      toXPath (.text "a:is(b,'(c')\x0b,\n i,[x=\"],(\"]\t, a[t='x,y']".toList) =
        .ok "//i | //a[@t=\"x,y\"]".toList := by
  have hpseudo : IsGroupText "a:is(b,'(c')".toList := by
    refine ⟨⟨by decide, by decide, by decide⟩, ?_⟩
    have hinside : (Marks.around ',').Closes 1 "b,'(c')".toList :=
      .run (v := "b,".toList) (by decide)
        (.quoted (v := "(c".toList) (by decide) (by decide) (.closes (by decide) .nil))
    exact .run (v := "a:is".toList) (by decide) (.opens (by decide) hinside)
  have hi : IsGroupText "i".toList :=
    ⟨⟨by decide, by decide, by decide⟩, Marks.closes_of_isPlain (by decide)⟩
  have hbroken : IsGroupText "[x=\"],(\"]".toList := by
    refine ⟨⟨by decide, by decide, by decide⟩, .opens (by decide) ?_⟩
    exact .run (v := "x=".toList) (by decide)
      (.quoted (v := "],(".toList) (by decide) (by decide) (.closes (by decide) .nil))
  have htitle : IsGroupText "a[t='x,y']".toList := by
    refine ⟨⟨by decide, by decide, by decide⟩, ?_⟩
    have hinside : (Marks.around ',').Closes 1 "t='x,y']".toList :=
      .run (v := "t=".toList) (by decide)
        (.quoted (v := "x,y".toList) (by decide) (by decide) (.closes (by decide) .nil))
    exact .run (v := ['a']) (by decide) (.opens (by decide) hinside)
  have hblank : ∀ {c : Char}, isBlank c = true → IsBlanks [c] := fun hc =>
    List.forall_mem_singleton.mpr hc
  have hline : IsBlanks "\n ".toList := by unfold IsBlanks; decide
  have hlisted : Listed mixedGroups "a:is(b,'(c')\x0b,\n i,[x=\"],(\"]\t, a[t='x,y']".toList :=
    .cons hpseudo (hblank (c := '\x0b') rfl) hline
      (.cons hi isBlanks_nil isBlanks_nil
        (.cons hbroken (hblank (c := '\t') rfl) (hblank (c := ' ') rfl) (.one htitle)))
  have hpaths : groupPaths mixedGroups = ["//i".toList, "//a[@t=\"x,y\"]".toList] := by
    decide +kernel
  refine ⟨hlisted, ?_⟩
  rw [(toXPath_listed hlisted).1 (by rw [hpaths]; exact List.cons_ne_nil _ _), hpaths]
  rfl

end Locator.Css
