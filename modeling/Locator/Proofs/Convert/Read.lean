/-
What is read from unions of paths

* `splitTop_squeeze`, `strip_squeeze`: the paths of a union are parted and stripped in a
  shortened text as in the text itself;
* `pathsOf`: the paths of a union, step by step and bracket by bracket, and
  `bracketStepsOf_squeeze`: what a path holds that is read as steps;
* `groupsOf`, `toCss_eq_canonical`: the groups that a union of paths is read as, and **its
  selector is their canonical text**;
* `toXPath_toCss`: **a selector that is written comes back** from its path, if no value needs
  escapes or hides anything.
-/
import Locator.Proofs.Convert.RoundTrip
import Locator.Proofs.Css.Bracket

namespace Locator

open Text

namespace XPath

open Css

variable {s x b u : Text} {n : Nesting} {steps : Chain} {t : Test} {gs : List Group}
  {ys : List BracketStep}

/-! ### Shortened texts -/

/-- The parts of a shortened text are the shortened parts. -/
lemma splitTopFrom_squeezeFrom {k : ℕ} (hn : n.IsSound) {p : Text} {ps : List Text}
    (h : splitTopFrom ['|'] 0 n s = p :: ps) :
    splitTopFrom ['|'] 0 n (squeezeFrom k s) = squeezeFrom k p :: ps.map squeeze := by
  induction s generalizing n k p ps with
  | nil =>
      obtain ⟨rfl, rfl⟩ := List.cons.inj h
      rfl
  | cons c r ih =>
      have hbar : ∀ t, ['|'].isPrefixOf (c :: t) = (c == '|') := fun t => by
        rw [List.isPrefixOf, List.isPrefixOf, Bool.and_true, Bool.eq_iff_iff, beq_iff_eq, beq_iff_eq,
          eq_comm]
      by_cases hcut : (n.isFree opening closing c && c == '|') = true
      · have hc : c = '|' := by simpa using (Bool.and_eq_true_iff.mp hcut).2
        obtain ⟨p', ps', hr⟩ := List.exists_cons_of_ne_nil (splitTopFrom_ne_nil ['|'] 0 n r)
        have hsqueeze : squeezeFrom k (c :: r) = c :: squeezeFrom 0 r := by
          rw [squeezeFrom, if_neg (by rw [hc]; decide)]
        have hhere : ∀ t, splitTopFrom ['|'] 0 n (c :: t) = [] :: splitTopFrom ['|'] 0 n t := fun t => by
          rw [splitTopFrom, hbar, if_pos hcut]
          rfl
        rw [hhere, hr] at h
        obtain ⟨rfl, rfl⟩ := List.cons.inj h
        rw [hsqueeze, hhere, ih hn hr]
        rfl
      · have hpass : ∀ t, splitTopFrom ['|'] 0 n (c :: t) =
            consFirst c (splitTopFrom ['|'] 0 (n.next opening closing c) t) := fun t => by
          rw [splitTopFrom, hbar, if_neg hcut]
        obtain ⟨p', ps', hr⟩ := List.exists_cons_of_ne_nil
          (splitTopFrom_ne_nil ['|'] 0 (n.next opening closing c) r)
        rw [hpass, hr] at h
        obtain ⟨rfl, rfl⟩ := List.cons.inj h
        by_cases hc : c = '/'
        · subst hc
          have hnext : n.next opening closing '/' = n := hn.next_eq_self rfl (by decide) (by decide)
          rw [hnext] at hpass hr
          by_cases hlt : k < 2
          · have hsqueeze : ∀ t, squeezeFrom k ('/' :: t) = '/' :: squeezeFrom (k + 1) t := fun t => by
              rw [squeezeFrom, if_pos (beq_self_eq_true _), if_pos hlt]
            rw [hsqueeze, hpass, ih hn hr, hsqueeze]
            rfl
          · have hsqueeze : ∀ t, squeezeFrom k ('/' :: t) = squeezeFrom k t := fun t => by
              rw [squeezeFrom, if_pos (beq_self_eq_true _), if_neg hlt]
            rw [hsqueeze, ih hn hr, hsqueeze]
        · have hsqueeze : ∀ t, squeezeFrom k (c :: t) = c :: squeezeFrom 0 t := fun t => by
            rw [squeezeFrom, if_neg (by simpa using hc)]
          rw [hsqueeze, hpass, ih (hn.next _ _ c) hr, hsqueeze]
          rfl

/-- **The paths of a union** are parted in a shortened text as in the text itself. -/
theorem splitTop_squeeze (s : Text) : splitTop ['|'] (squeeze s) = (splitTop ['|'] s).map squeeze := by
  obtain ⟨p, ps, h⟩ := List.exists_cons_of_ne_nil (splitTopFrom_ne_nil ['|'] 0 .outside s)
  have hsqueeze := splitTopFrom_squeezeFrom (k := 0) Nesting.isSound_outside h
  rw [splitTop, splitTop, h]
  exact hsqueeze

/-- The last character of a shortened text is a slash or that of the text. -/
lemma getLast?_squeezeFrom {c : Char} {k : ℕ} (h : c ∈ (squeezeFrom k s).getLast?) :
    c = '/' ∨ c ∈ s.getLast? := by
  induction s generalizing k with
  | nil => simp [squeezeFrom] at h
  | cons d r ih =>
      have hrest : ∀ {j e}, c ∈ (e :: squeezeFrom j r).getLast? → squeezeFrom j r ≠ [] →
          c = '/' ∨ c ∈ (d :: r).getLast? := by
        intro j e hc hne
        rw [List.getLast?_cons_of_ne_nil hne] at hc
        refine (ih hc).imp_right fun hr => ?_
        rw [List.getLast?_cons_of_ne_nil (List.ne_nil_of_mem (List.mem_of_getLast? hr))]
        exact hr
      rw [squeezeFrom] at h
      split_ifs at h with hd hk
      · by_cases hne : squeezeFrom (k + 1) r = []
        · rw [hne] at h
          exact .inl (Option.some.inj h).symm
        · exact hrest h hne
      · exact (ih h).imp_right fun hr => by
          rw [List.getLast?_cons_of_ne_nil (List.ne_nil_of_mem (List.mem_of_getLast? hr))]
          exact hr
      · by_cases hne : squeezeFrom 0 r = []
        · obtain rfl : r = [] := by
            have hhead := head?_squeeze r
            rw [squeeze, hne] at hhead
            exact List.head?_eq_none_iff.mp hhead.symm
          rw [hne] at h
          exact .inr h
        · exact hrest h hne

/-- **Blanks at the ends** of a shortened text are those of the text. -/
theorem strip_squeeze (s : Text) : strip (squeeze s) = squeeze (strip s) := by
  obtain ⟨bs, bs', hb, hb', hs⟩ := padded_strip s
  have hslash : ∀ {c}, isBlank c = true → c ≠ '/' := by
    rintro c hc rfl
    exact absurd hc (by decide)
  have hblanks : ∀ {bs}, IsBlanks bs → squeeze bs = bs := fun hb =>
    squeezeFrom_eq_self (fun hm => hslash (hb _ hm) rfl) 0
  have hrest : squeeze (strip s ++ bs') = squeeze (strip s) ++ bs' := by
    cases bs' with
    | nil => rw [List.append_nil, List.append_nil]
    | cons b r =>
        have hb' : isBlank b = true ∧ IsBlanks r := List.forall_mem_cons.mp hb'
        have h := squeezeFrom_append_cons (hslash hb'.1) 0 (strip s) r
        rw [hblanks hb'.2] at h
        exact h
  have hwhole : squeeze s = bs ++ squeeze (strip s) ++ bs' := by
    conv_lhs => rw [hs]
    rw [squeeze_append (fun c hc => hslash (hb c (List.mem_of_getLast? hc))), hblanks hb, hrest,
      List.append_assoc]
  by_cases hnil : strip s = []
  · have hsame : squeeze s = s := by
      rw [hwhole, hnil]
      conv_rhs => rw [hs, hnil]
      simp
    rw [hsame, hnil]
    rfl
  · have htrim : IsTrim (squeeze (strip s)) := by
      have hends := isTrim_strip hnil
      refine ⟨fun h => hnil ?_, fun c hc => hends.head c ?_, fun c hc => ?_⟩
      · have hhead := head?_squeeze (strip s)
        rw [h] at hhead
        exact List.head?_eq_none_iff.mp hhead.symm
      · rwa [head?_squeeze] at hc
      · rcases getLast?_squeezeFrom hc with rfl | hc
        · rfl
        · exact hends.last c hc
    rw [hwhole, strip_of_isTrim htrim hb hb']

/-! ### Paths of a union -/

/-- Whatever stands in the second list is related to something in the first one. -/
lemma exists_mem_of_forall₂ {α β : Type} {R : α → β → Prop} {l : List α} {l' : List β}
    (h : List.Forall₂ R l l') {y : β} (hy : y ∈ l') : ∃ x ∈ l, R x y := by
  induction h with
  | nil => simp at hy
  | @cons a b l l' hab _ ih =>
      rcases List.mem_cons.mp hy with rfl | hy
      · exact ⟨a, List.mem_cons_self, hab⟩
      · obtain ⟨x, hx, hxy⟩ := ih hy
        exact ⟨x, List.mem_cons_of_mem a hx, hxy⟩

/-- The paths of a union, without the blanks around each and the slashes behind the last. -/
def branches (x : Text) : List Text :=
  (splitTop ['|'] (dropEnd isSlashOrBlank (strip x))).map strip

/-- The chains of a union are read from its shortened paths. -/
lemma chainsOf_eq (x : Text) : chainsOf x = (branches x).mapM fun b => chainOf (squeeze b) := by
  have hstrip : (strip ∘ squeeze : Text → Text) = squeeze ∘ strip := funext strip_squeeze
  have h := fun l : List Text => List.mapM_map (m := Option) (f := strip) (g := chainOf) (l := l)
  have h' := fun l : List Text => List.mapM_map (m := Option) (f := squeeze) (g := chainOf) (l := l)
  have hchains : chainsOf x = ((splitTop ['|'] (normalize x)).map strip).mapM chainOf := (h _).symm
  have hbranches : ((branches x).map squeeze).mapM chainOf =
      (branches x).mapM fun b => chainOf (squeeze b) := h' _
  rw [hchains, ← hbranches, normalize, splitTop_squeeze, branches, List.map_map, List.map_map, hstrip]

/-- A part of a path as a step with its brackets. -/
def bracketStepOf (part : Segment) : Option BracketStep :=
  (bracketsOf part.text).map fun x => ⟨part.combinator, x.1, x.2⟩

/-- The steps of a path with their brackets. -/
def bracketStepsOf (path : Text) : Option (List BracketStep) :=
  match segments path with
  | [] => none
  | parts => parts.mapM bracketStepOf

/-- **The paths of a union**, step by step and bracket by bracket. -/
def pathsOf (x : Text) : Option (List (List BracketStep)) :=
  (branches x).mapM fun b => bracketStepsOf (squeeze b)

/-- A chain has the steps of the path with all their tests. -/
lemma chainOf_eq (path : Text) :
    chainOf path = (bracketStepsOf path).map (List.map BracketStep.step) := by
  rw [chainOf, bracketStepsOf]
  cases segments path with
  | nil => rfl
  | cons part parts =>
      have hstep : ∀ part : Segment, (do return ⟨part.combinator, ← compoundOf part.text⟩ :
          Option Step) = (bracketStepOf part).map BracketStep.step := by
        intro part
        rw [compoundOf_eq, bracketStepOf]
        cases bracketsOf part.text <;> rfl
      simp only [hstep]
      exact mapM_map_eq _ _ _

lemma chainsOf_eq_paths (x : Text) :
    chainsOf x = (pathsOf x).map (List.map (List.map BracketStep.step)) := by
  simp only [chainsOf_eq, chainOf_eq]
  exact mapM_map_eq _ _ _

/-- A step stands where a path has a part. -/
structure BracketStep.IsAt (y : BracketStep) (part : Segment) : Prop where
  combinator : y.combinator = part.combinator
  text : StepText y.tag y.brackets part.text

/-- The parts of a path with a step in front, if there is one, and steps behind slashes. -/
def partsOf (lead : Text) (legs : List Leg) : List Segment :=
  (if lead = [] then [] else [⟨.descendant, squeeze lead⟩]) ++ legs.map Leg.segment

/-- **What a path holds that is read as steps**: a step perhaps, further steps behind runs of
slashes, and a last run of slashes. -/
structure HoldsSteps (ys : List BracketStep) (b lead : Text) (legs : List Leg) (k : ℕ) : Prop where
  text : b = lead ++ (legs.flatMap Leg.written ++ List.replicate k '/')
  front : ∀ c ∈ lead.head?, c ≠ '/'
  proper : ∀ y ∈ legs, y.IsProper
  parts : List.Forall₂ BracketStep.IsAt ys (partsOf lead legs)
  ne_nil : ys ≠ []

theorem bracketStepsOf_squeeze (h : bracketStepsOf (squeeze b) = some ys) :
    ∃ lead legs k, HoldsSteps ys b lead legs k := by
  obtain ⟨lead, legs, k, htext, hlead, hlegs, hsegments⟩ := segments_squeeze b
  have hsegments : segments (squeeze b) = partsOf lead legs := hsegments
  rw [bracketStepsOf, hsegments] at h
  split at h
  · simp at h
  · next heq =>
      rw [mapM_eq_some] at h
      refine ⟨lead, legs, k, htext, hlead, hlegs, .flip (List.Forall₂.imp (fun part y hy => ?_) h), ?_⟩
      · obtain ⟨⟨tag, tss⟩, hx, rfl⟩ := Option.map_eq_some_iff.mp hy
        exact ⟨rfl, stepText_of_bracketsOf hx⟩
      · rintro rfl
        rw [List.forall₂_nil_right_iff] at h
        exact heq h

/-! ### Groups -/

/-- A chain as a group; in front of the first step no combinator counts. -/
def groupOf : Chain → Group
  | [] => ⟨⟨['*'], []⟩, []⟩
  | y :: ys => ⟨y.compound, ys⟩

/-- The groups that a union of paths is read as. -/
def groupsOf (x : Text) : Option (List Group) := (chainsOf x).map (List.map groupOf)

/-- The group that has the steps of a path. -/
def groupOfPath (ys : List BracketStep) : Group := groupOf (ys.map BracketStep.step)

/-- The groups of a union have the steps of its paths. -/
lemma groupsOf_eq (x : Text) : groupsOf x = (pathsOf x).map (List.map groupOfPath) := by
  rw [groupsOf, chainsOf_eq_paths, Option.map_map]
  exact congrArg (fun f => Option.map f (pathsOf x)) (funext fun yss => List.map_map)

lemma toCss_groupOf (h : steps ≠ []) : (groupOf steps).chain.toCss = steps.toCss := by
  obtain ⟨y, ys, rfl⟩ := List.exists_cons_of_ne_nil h
  rfl

/-- The steps of a union are read from its paths. -/
lemma forall₂_pathsOf {yss : List (List BracketStep)} (h : pathsOf x = some yss) :
    List.Forall₂ (fun b ys => ∃ lead legs k, HoldsSteps ys b lead legs k) (branches x) yss := by
  rw [pathsOf, mapM_eq_some] at h
  exact h.imp fun _ _ hb => bracketStepsOf_squeeze hb

/-- **The selector of a union of paths** is the canonical text of its groups. -/
theorem toCss_eq_canonical (x : Text) : toCss x = (groupsOf x).map canonical := by
  rw [toCss_eq, groupsOf, chainsOf_eq_paths]
  cases h : pathsOf x with
  | none => rfl
  | some yss =>
      have hall := forall₂_pathsOf h
      set css := yss.map (List.map BracketStep.step) with hcss
      have htexts : css.map Chain.toCss = (css.map groupOf).map fun g => g.chain.toCss := by
        refine (List.map_congr_left fun steps hsteps => ?_).trans List.map_map.symm
        obtain ⟨ys, hys, rfl⟩ := List.mem_map.mp hsteps
        obtain ⟨b, -, lead, legs, k, hb⟩ := exists_mem_of_forall₂ hall hys
        exact (toCss_groupOf (by simpa using hb.ne_nil)).symm
      rw [Option.map_some, Option.map_some, Option.map_some, Option.map_some, htexts, canonical]

/-! ### Selectors that come back -/

/-- The value of a test stands in its condition. -/
lemma States.value_infix (h : States t u) : t.value <:+: u := by
  cases h with
  | @equals a bs bs' v q =>
      rw [equalsTest]
      split_ifs
      · exact List.nil_infix
      · exact ⟨'@' :: (a ++ (bs ++ '=' :: (bs' ++ [q]))), [q], by simp [Test.value]⟩
  | @word u bs w bs' =>
      rw [classTest]
      split_ifs
      · exact List.nil_infix
      · refine ⟨"contains(".toList ++ (u ++ (bs ++ "' ".toList)), " '".toList ++ (bs' ++ [')']), ?_⟩
        simp only [Test.value, List.append_assoc]
  | position => exact List.nil_infix

/-- Every test of a step is stated in its text. -/
lemma StepText.exists_states {tag : Text} {tss : List (List Test)} (h : StepText tag tss s)
    (ht : t ∈ tss.flatten) : ∃ u, States t u ∧ u <:+: s := by
  obtain ⟨-, bodies, hall, hpadded⟩ := h
  obtain ⟨ts, hts, ht⟩ := List.mem_flatten.mp ht
  obtain ⟨body, hbody, t', ts', part, parts, rfl, hjoin, hparts⟩ :=
    exists_mem_of_forall₂ hall.flip hts
  obtain ⟨p, hp, u, hu, hstates⟩ := exists_mem_of_forall₂ hparts.flip ht
  have hbodies : bracketed body <:+: bodies.flatMap bracketed :=
    List.infix_of_mem_flatten (List.mem_map_of_mem hbody)
  have hinner : body <:+: bracketed body := ⟨['['], [']'], rfl⟩
  refine ⟨u, hstates, hu.isInfix.trans ?_⟩
  refine ((infix_join hp).trans (hjoin.isInfix.trans hinner)).trans (hbodies.trans ?_)
  exact (List.suffix_append ..).isInfix.trans hpadded.isInfix

/-- **What is read as a compound** has a name, tests that conditions state, and values that
are not shortened further. -/
structure Compound.IsRead (c : Compound) : Prop where
  tag : c.tag = ['*'] ∨ isWordName c.tag = true
  stated : ∀ t ∈ c.tests, t.isStated = true
  short : ∀ t ∈ c.tests, squeeze t.value = t.value

lemma StepText.isRead {tag : Text} {tss : List (List Test)} (h : StepText tag tss (squeeze s)) :
    Compound.IsRead ⟨tag, tss.flatten⟩ where
  tag := h.tag
  stated t ht := by
    obtain ⟨u, hu, -⟩ := h.exists_states ht
    exact isStated_of_states hu
  short t ht := by
    obtain ⟨u, hu, hs⟩ := h.exists_states ht
    exact squeeze_of_infix (squeeze_squeeze s) (hu.value_infix.trans hs)

lemma HoldsSteps.isRead {lead : Text} {legs : List Leg} {k : ℕ} (h : HoldsSteps ys b lead legs k) :
    ∀ y ∈ ys, Compound.IsRead y.step.compound := by
  intro y hy
  obtain ⟨part, hpart, hat⟩ := exists_mem_of_forall₂ h.parts.flip hy
  obtain ⟨u, hu⟩ : ∃ u, part.text = squeeze u := by
    rw [partsOf, List.mem_append, List.mem_map] at hpart
    rcases hpart with hpart | ⟨leg, -, rfl⟩
    · split_ifs at hpart
      · simp at hpart
      · exact ⟨lead, by rw [List.mem_singleton.mp hpart]⟩
    · exact ⟨leg.text, rfl⟩
  exact StepText.isRead (hu ▸ hat.text)

lemma isRead_of_groupsOf (h : groupsOf x = some gs) :
    gs ≠ [] ∧ ∀ g ∈ gs, ∀ c ∈ g.compounds, Compound.IsRead c := by
  rw [groupsOf_eq] at h
  obtain ⟨yss, hyss, rfl⟩ := Option.map_eq_some_iff.mp h
  have hall := forall₂_pathsOf hyss
  constructor
  · intro hnil
    rw [List.map_eq_nil_iff.mp hnil, List.forall₂_nil_right_iff, branches, List.map_eq_nil_iff] at hall
    exact splitTopFrom_ne_nil _ _ _ _ hall
  · rw [List.forall_mem_map]
    intro ys hys c hc
    obtain ⟨b, -, lead, legs, k, hb⟩ := exists_mem_of_forall₂ hall hys
    obtain ⟨y, ys, rfl⟩ := List.exists_cons_of_ne_nil hb.ne_nil
    have hc : c ∈ ((y :: ys).map BracketStep.step).map Step.compound := hc
    rw [List.map_map] at hc
    obtain ⟨z, hz, rfl⟩ := List.mem_map.mp hc
    exact hb.isRead z hz

/-- **A selector that is written comes back** from its path, if no value needs escapes or
hides anything. -/
theorem toXPath_toCss (h : groupsOf x = some gs)
    (hv : ∀ g ∈ gs, ∀ c ∈ g.compounds, ∀ t ∈ c.tests, '"' ∉ t.value ∧ '\\' ∉ t.value)
    (hl : ∀ g ∈ gs, g.IsLevel) :
    ∃ c p, toCss x = some c ∧ Css.toXPath (.text c) = .ok p ∧ toCss p = some c := by
  obtain ⟨hne, hread⟩ := isRead_of_groupsOf h
  obtain ⟨p, hp, hc⟩ := toCss_toXPath_of_isStated hne
    (fun g hg c hc => ⟨(hread g hg c hc).tag, (hread g hg c hc).stated, fun t ht => (hv g hg c hc t ht).1⟩)
    (fun g hg c hc t ht => (hv g hg c hc t ht).2) (fun g hg c hc => (hread g hg c hc).short) hl
  exact ⟨canonical gs, p, by rw [toCss_eq_canonical, h, Option.map_some], hp, hc⟩

/-- A union of paths with blanks around everything and positions in the middle. -/
def spacedUnion : Text := " //ul[ position() = 2 and @id='x' ]/*[@title = \x22it's (1)\x22 ] |p///a/".toList

/-- The groups of a union of paths with blanks around everything. -/
def spacedGroups : List Group :=
  [⟨⟨"ul".toList, [.nthOfType ['2'], .id ['x']]⟩,
      [⟨.child, ⟨['*'], [.compare "title".toList .equals "it's (1)".toList]⟩⟩]⟩,
    ⟨⟨['p'], []⟩, [⟨.descendant, ⟨['a'], []⟩⟩]⟩]

/-- The selector of a union with blanks around everything comes back. -/
theorem toXPath_toCss_spaced :
    (groupsOf spacedUnion = some spacedGroups ∧
      (∀ g ∈ spacedGroups, ∀ c ∈ g.compounds, ∀ t ∈ c.tests, '"' ∉ t.value ∧ '\\' ∉ t.value) ∧
      ∀ g ∈ spacedGroups, g.IsLevel) ∧
    ∃ c p, toCss spacedUnion = some c ∧ Css.toXPath (.text c) = .ok p ∧ toCss p = some c := by
  have h : groupsOf spacedUnion = some spacedGroups := by decide +kernel
  have hv : ∀ g ∈ spacedGroups, ∀ c ∈ g.compounds, ∀ t ∈ c.tests,
      '"' ∉ t.value ∧ '\\' ∉ t.value := by decide
  have hl : ∀ g ∈ spacedGroups, g.IsLevel := by decide
  exact ⟨⟨h, hv, hl⟩, toXPath_toCss h hv hl⟩

/-- **A value with a quotation mark** comes back with a backslash more, and the selector for one
with a closing bracket has no path. -/
theorem toXPath_toCss_quoted :
    (toCss "//a[@b='x\x22y']".toList = some "a[b=\x22x\\\x22y\x22]".toList ∧
      Css.toXPath (.text "a[b=\x22x\\\x22y\x22]".toList) = .ok "//a[@b='x\\\x22y']".toList ∧
      toCss "//a[@b='x\\\x22y']".toList = some "a[b=\x22x\\\\\\\x22y\x22]".toList) ∧
    toCss "//a[@b='x]y']".toList = some "a[b=\x22x]y\x22]".toList ∧
      ∃ e, Css.toXPath (.text "a[b=\x22x]y\x22]".toList) = .error e :=
  ⟨⟨by decide +kernel, by decide +kernel, by decide +kernel⟩, by decide +kernel, _, rfl⟩

end XPath

end Locator
