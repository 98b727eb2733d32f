/-
Paths as the converter reads them

* `segmentsFrom_steps`, `chainOf_toXPath`: steps are cut off one after the other, and **a
  chain is read from its path**;
* `splitTop_paths`: the paths of a union are parted;
* `squeeze_condition`, `squeeze_path`: no run of slashes in a path is shortened if none in a
  value is;
* `chainsOf`, `chainsOf_paths`: **the chains of a union of paths** are read from it.
-/
import Locator.Proofs.Convert.Parts
import Locator.Proofs.Convert.Steps
import Locator.Proofs.Css.Canonical
import Locator.Proofs.Css.Chosen
import Locator.Proofs.XPath.Normal

namespace Locator

open Text

namespace XPath

open Css

variable {s : Text} {c : Compound}

/-! ### Chains are read from their paths -/

variable {ss : List Step} {g : Group} {gs : List Group}

/-- A slash outside of everything ends a step. -/
lemma cutStep_slash (r : Text) : cutStep .outside ('/' :: r) = ([], '/' :: r) := rfl

/-- Further steps start with a slash. -/
lemma cutStep_chain (ss : List Step) :
    cutStep .outside (chainText Compound.toXPath ss) = ([], chainText Compound.toXPath ss) := by
  cases ss with
  | nil => rfl
  | cons s ss =>
      obtain ⟨how, c⟩ := s
      cases how <;> exact cutStep_slash _

/-- A step starts with no slash. -/
lemma step_ne_slash (h : c.IsStated) (rest : Text) : ∀ r, c.toXPath ++ rest ≠ '/' :: r := by
  intro r heq
  have hhead : (c.toXPath ++ rest).head? = some '/' := by rw [heq]; rfl
  have htag : c.toXPath.head? = c.tag.head? := by
    rw [Compound.toXPath_eq]
    split_ifs
    · rfl
    · rw [List.append_assoc, List.head?_append_of_ne_nil _ (isTrim_tag h).ne_nil]
  rw [List.head?_append_of_ne_nil _ (isEnclosed_step h).ne_nil, htag] at hhead
  rcases h.tag with hstar | hname
  · rw [hstar] at hhead
    exact absurd hhead (by decide)
  · exact absurd (isInert_name hname _ (List.mem_of_mem_head? hhead)) (by decide)

/-- Steps are cut off one after the other. -/
lemma segmentsFrom_steps (h : ∀ s ∈ ss, s.compound.IsStated) (before : Combinator) (fuel : ℕ) :
    segmentsFrom (ss.length + fuel) before (chainText Compound.toXPath ss) =
      ss.map fun s => ⟨s.combinator, s.compound.toXPath⟩ := by
  induction ss generalizing before with
  | nil => cases fuel <;> rfl
  | cons s ss ih =>
      rw [List.forall_mem_cons] at h
      have hcut : cutStep .outside (s.compound.toXPath ++ chainText Compound.toXPath ss) =
          (s.compound.toXPath, chainText Compound.toXPath ss) := by
        have hpasses : stepScan.Passes .outside s.compound.toXPath .outside :=
          Compound.passes_toXPath h.1 (.inr rfl)
        rw [cutStep_passes hpasses, cutStep_chain, List.append_nil]
      have haxis := readAxis_axis before s.combinator (step_ne_slash h.1 (chainText Compound.toXPath ss))
      have htext : chainText Compound.toXPath (s :: ss) =
          Chain.axis s.combinator ++ (s.compound.toXPath ++ chainText Compound.toXPath ss) := by
        rw [chainText, List.flatMap_cons, List.append_assoc]
        rfl
      obtain ⟨d, r, hdr⟩ : ∃ d r, chainText Compound.toXPath (s :: ss) = d :: r := by
        rw [htext]
        cases s.combinator <;> exact ⟨_, _, rfl⟩
      have hne : s.compound.toXPath.isEmpty = false := by simpa using (isEnclosed_step h.1).ne_nil
      rw [← htext, hdr] at haxis
      rw [hdr, List.length_cons, Nat.add_right_comm, segmentsFrom, haxis, List.map_cons]
      simp only [hcut, hne, Bool.false_eq_true, if_false, ih h.2]

/-- There are no more steps than characters. -/
lemma length_le_chainText (ss : List Step) :
    ss.length ≤ (chainText Compound.toXPath ss).length := by
  induction ss with
  | nil => exact Nat.zero_le _
  | cons s ss ih =>
      have haxis : 0 < (Chain.axis s.combinator).length := by cases s.combinator <;> decide
      rw [chainText] at ih
      simp only [chainText, List.length_cons, List.flatMap_cons, List.length_append]
      omega

/-- **A chain is read from its path.** -/
theorem chainOf_toXPath (h : ∀ c ∈ g.compounds, c.IsStated) : chainOf g.chain.toXPath = some g.chain := by
  rw [Group.compounds, List.forall_mem_cons, List.forall_mem_map] at h
  have hsteps : ∀ s ∈ g.chain, s.compound.IsStated := List.forall_mem_cons.mpr h
  have htext : g.chain.toXPath = chainText Compound.toXPath g.chain := by
    rw [Group.chain, Chain.toXPath, chainText, List.flatMap_cons]
    rfl
  have hsegments : segments g.chain.toXPath =
      g.chain.map fun s => ⟨s.combinator, s.compound.toXPath⟩ := by
    obtain ⟨k, hk⟩ := Nat.exists_eq_add_of_le (length_le_chainText g.chain)
    rw [htext, segments, hk]
    exact segmentsFrom_steps hsteps _ _
  have hread : ∀ ss : List Step, (∀ s ∈ ss, s.compound.IsStated) →
      (ss.map fun s => (⟨s.combinator, s.compound.toXPath⟩ : Segment)).mapM
        (fun x => return (⟨x.combinator, ← compoundOf x.text⟩ : Step)) = some ss := by
    intro ss
    induction ss with
    | nil => exact fun _ => rfl
    | cons s ss ih =>
        intro hs
        rw [List.forall_mem_cons] at hs
        rw [List.map_cons, List.mapM_cons, ih hs.2]
        simp only [compoundOf_toXPath hs.1, Option.bind_eq_bind, Option.bind_some, Option.pure_def]
  have hall := hread g.chain hsteps
  rw [chainOf, hsegments]
  exact hall

/-! ### Unions of paths -/

/-- Nothing parts a path. -/
lemma passes_chain (h : ∀ c ∈ g.compounds, c.IsStated) :
    (separators '|').Passes .outside g.chain.toXPath .outside := by
  have haxis : ∀ how, (separators '|').Passes .outside (Chain.axis how) .outside := by
    intro how
    cases how <;> exact .of_after (by decide)
  have hsteps : ∀ ss : List Step, (∀ s ∈ ss, s.compound.IsStated) →
      (separators '|').Passes .outside (chainText Compound.toXPath ss) .outside := by
    intro ss
    induction ss with
    | nil => exact fun _ => .nil _
    | cons s ss ih =>
        intro hs
        rw [List.forall_mem_cons] at hs
        rw [chainText, List.flatMap_cons]
        exact ((haxis _).append (Compound.passes_toXPath hs.1 (.inl rfl))).append (ih hs.2)
  rw [Group.compounds, List.forall_mem_cons, List.forall_mem_map] at h
  exact hsteps g.chain (List.forall_mem_cons.mpr h)

/-- A path ends in a step. -/
lemma exists_lastStep (h : ∀ c ∈ g.compounds, c.IsStated) :
    ∃ u : Text, ∃ c : Compound, g.chain.toXPath = '/' :: (u ++ c.toXPath) ∧ c.IsStated := by
  have hsteps : ∀ ss : List Step, ss ≠ [] → (∀ s ∈ ss, s.compound.IsStated) →
      ∃ u : Text, ∃ c : Compound,
        chainText Compound.toXPath ss = '/' :: (u ++ c.toXPath) ∧ c.IsStated := by
    intro ss
    induction ss with
    | nil => exact fun hnil => absurd rfl hnil
    | cons s ss ih =>
        intro _ hs
        rw [List.forall_mem_cons] at hs
        obtain ⟨v, hv⟩ : ∃ v, Chain.axis s.combinator = '/' :: v := by
          cases s.combinator <;> exact ⟨_, rfl⟩
        rw [chainText, List.flatMap_cons, hv]
        by_cases hnil : ss = []
        · rw [hnil]
          exact ⟨v, s.compound, by simp, hs.1⟩
        · obtain ⟨u, c, hu, hc⟩ := ih hnil hs.2
          rw [chainText] at hu
          exact ⟨v ++ s.compound.toXPath ++ '/' :: u, c, by rw [hu]; simp, hc⟩
  rw [Group.compounds, List.forall_mem_cons, List.forall_mem_map] at h
  exact hsteps g.chain (List.cons_ne_nil _ _) (List.forall_mem_cons.mpr h)

/-- Neither a blank nor a slash stands at the ends of a path but the first one. -/
lemma isEnclosed_path (h : ∀ c ∈ g.compounds, c.IsStated) : IsEnclosed g.chain.toXPath := by
  obtain ⟨u, c, hu, hc⟩ := exists_lastStep h
  have hslash : IsTrim ['/'] := ⟨List.cons_ne_nil _ _, by decide, by decide⟩
  have hstep := isEnclosed_step hc
  rw [hu]
  refine ⟨hslash.append u hstep.toIsTrim, ?_⟩
  rw [← List.cons_append, List.getLast?_append_of_ne_nil _ hstep.ne_nil]
  exact hstep.noSlash

/-- The paths of a union are parted, and the blanks around the bars are passed over. -/
lemma splitTop_paths {p : Text} {ps : List Text}
    (h : ∀ x ∈ p :: ps, (separators '|').Passes .outside x .outside ∧ IsTrim x) :
    (splitTop ['|'] (join " | ".toList (p :: ps))).map strip = p :: ps := by
  have hblank : (separators '|').Passes .outside [' '] .outside := .of_after (by decide)
  have hmore : ∀ (ps : List Text) (p lead : Text),
      (∀ x ∈ p :: ps, (separators '|').Passes .outside x .outside ∧ IsTrim x) →
      (separators '|').Passes .outside lead .outside → (∀ c ∈ lead, isBlank c = true) →
      (splitTopFrom ['|'] 0 .outside (lead ++ join " | ".toList (p :: ps))).map strip = p :: ps := by
    intro ps
    induction ps with
    | nil =>
        intro p lead hp hlead hb
        rw [List.forall_mem_singleton] at hp
        have hsplit := splitTopFrom_passes (hlead.append hp.1)
          (splitTopFrom_nil ['|'] .outside)
        rw [join_singleton, ← List.append_nil p, ← List.append_assoc, hsplit, List.map_singleton,
          strip_of_isTrim hp.2 hb (by simp), List.append_nil]
    | cons p' ps ih =>
        intro p lead hp hlead hb
        rw [List.forall_mem_cons] at hp
        have hrest := ih p' [' '] hp.2 hblank (by decide)
        have hsplit := splitTopFrom_passes ((hlead.append hp.1.1).append hblank)
          (splitTopFrom_sep rfl [] ([' '] ++ join " | ".toList (p' :: ps)))
        have htext : lead ++ join " | ".toList (p :: p' :: ps) =
            lead ++ p ++ [' '] ++ (['|'] ++ ([' '] ++ join " | ".toList (p' :: ps))) := by
          have hbar : " | ".toList = [' '] ++ (['|'] ++ [' ']) := rfl
          rw [join_cons_cons, hbar]
          simp only [List.append_assoc]
        rw [htext, hsplit, List.map_cons, hrest, List.append_nil,
          strip_of_isTrim hp.1.2 hb (by decide)]
  exact hmore ps p [] h (.nil _) (by simp)

/-! ### Normal forms -/

/-- Only the text between others is shortened. -/
lemma squeeze_between {a v b : Text} {d : Char} (ha : '/' ∉ a) (hb : '/' ∉ d :: b) :
    squeeze (a ++ (v ++ d :: b)) = a ++ (squeeze v ++ d :: b) := by
  have hlast : ∀ x ∈ a.getLast?, x ≠ '/' := fun x hx hslash =>
    ha (hslash ▸ List.mem_of_getLast? hx)
  rw [List.mem_cons, not_or] at hb
  have hv : squeeze (v ++ d :: b) = squeeze v ++ d :: squeeze b :=
    squeezeFrom_append_cons (Ne.symm hb.1) 0 v b
  have ha' : squeeze a = a := squeezeFrom_eq_self ha 0
  have hb' : squeeze b = b := squeezeFrom_eq_self hb.2 0
  rw [squeeze_append hlast, ha', hv, hb']

lemma squeeze_equalsText {a v : Text} (ha : '/' ∉ a) (hv : squeeze v = v) :
    squeeze (equalsText a v) = equalsText a v := by
  have htext : equalsText a v = '@' :: (a ++ ['=', '"']) ++ (v ++ ['"']) := by simp [equalsText]
  have hstart : '/' ∉ '@' :: (a ++ ['=', '"']) := by simp [ha]
  rw [htext, squeeze_between hstart (by decide), hv]

lemma squeeze_classText {v : Text} (hv : squeeze v = v) : squeeze (classText v) = classText v := by
  have htext : classText v = classStart ++ ['\'', ' '] ++ (v ++ [' ', '\'', ')']) := by
    simp [classText]
  have hstart : '/' ∉ classStart ++ ['\'', ' '] := by decide
  rw [htext, squeeze_between hstart (by decide), hv]

/-- A condition is not shortened if its value is not. -/
lemma squeeze_condition {t : Test} (h : t.isStated = true) (hv : '"' ∉ t.value)
    (hs : squeeze t.value = t.value) : squeeze t.toXPath = t.toXPath := by
  have hinert : ∀ {u : Text}, (∀ c ∈ u, isInert c = true) → '/' ∉ u := fun hu hm =>
    absurd (hu _ hm) (by decide)
  have hholds : ∀ {v}, t.Shows v → squeeze v = v := by
    rintro v (rfl | hplain)
    · exact hs
    · exact squeezeFrom_eq_self (hinert (isInert_ident hplain)) 0
  obtain ⟨a, v, ha, -, hv', -, htext⟩ | ⟨v, -, hv', -, htext⟩ | ⟨digits, -, hd, -, htext⟩ :=
    Test.toXPath_cases h hv
  · rw [htext, squeeze_equalsText (hinert (isInert_name ha)) (hholds hv')]
  · rw [htext, squeeze_classText (hholds hv')]
  · have hslash : '/' ∉ "position()=".toList ++ digits := by
      rw [List.mem_append, not_or]
      exact ⟨by decide, hinert (isInert_digits hd)⟩
    rw [htext]
    exact squeezeFrom_eq_self hslash 0

/-- A step is not shortened if no value is. -/
lemma squeeze_step (h : c.IsStated) (hs : ∀ t ∈ c.tests, squeeze t.value = t.value) :
    squeeze c.toXPath = c.toXPath := by
  have htag : '/' ∉ c.tag := by
    rcases h.tag with hstar | hname
    · rw [hstar]
      decide
    · exact fun hm => absurd (isInert_name hname _ hm) (by decide)
  have hlast : ∀ x ∈ c.tag.getLast?, x ≠ '/' := fun x hx hslash =>
    htag (hslash ▸ List.mem_of_getLast? hx)
  have htag' : squeeze c.tag = c.tag := squeezeFrom_eq_self htag 0
  have hbody : squeeze c.body = c.body := by
    rw [Compound.body, squeeze_join (by decide) (by decide)]
    · rw [List.map_map]
      congr 1
      exact List.map_congr_left fun t ht => squeeze_condition (h.stated t ht) (h.raw t ht) (hs t ht)
    · intro x hx
      obtain ⟨t, ht, rfl⟩ := List.mem_map.mp hx
      exact (Test.isEnclosed_toXPath (h.stated t ht) (h.raw t ht)).noSlash
  rw [Compound.toXPath_eq]
  split_ifs
  · exact htag'
  · have hstart : '/' ∉ c.tag ++ ['['] := by simp [htag]
    have htext : c.tag ++ '[' :: c.body ++ [']'] = c.tag ++ ['['] ++ (c.body ++ [']']) := by simp
    rw [htext, squeeze_between hstart (by decide), hbody]

/-- A path is not shortened if no value is. -/
lemma squeeze_path (h : ∀ c ∈ g.compounds, c.IsStated)
    (hs : ∀ c ∈ g.compounds, ∀ t ∈ c.tests, squeeze t.value = t.value) :
    squeeze g.chain.toXPath = g.chain.toXPath := by
  have hstep : ∀ {c : Compound} (how : Combinator) (r : Text), c.IsStated →
      (∀ t ∈ c.tests, squeeze t.value = t.value) →
      squeeze (Chain.axis how ++ (c.toXPath ++ r)) = Chain.axis how ++ (c.toXPath ++ squeeze r) := by
    intro c how r hc hv
    obtain ⟨d, u, hdu⟩ := List.exists_cons_of_ne_nil (isEnclosed_step hc).ne_nil
    have hd : d ≠ '/' := fun hslash => by
      refine step_ne_slash hc [] u ?_
      rw [hdu, hslash, List.append_nil]
    have haxis : squeeze (Chain.axis how) = Chain.axis how := by cases how <;> rfl
    have hrest : squeeze (c.toXPath ++ r) = c.toXPath ++ squeeze r := by
      rw [squeeze_append (isEnclosed_step hc).noSlash, squeeze_step hc hv]
    have hcons : squeeze (c.toXPath ++ r) = d :: squeeze (u ++ r) := by
      rw [hdu, List.cons_append, squeeze_cons hd]
    have hall : squeeze (Chain.axis how ++ d :: (u ++ r)) =
        squeeze (Chain.axis how) ++ d :: squeeze (u ++ r) := squeezeFrom_append_cons hd 0 _ _
    rw [← hrest, hcons, hdu, List.cons_append, hall, haxis]
  have hsteps : ∀ ss : List Step, (∀ s ∈ ss, s.compound.IsStated) →
      (∀ s ∈ ss, ∀ t ∈ s.compound.tests, squeeze t.value = t.value) →
      squeeze (chainText Compound.toXPath ss) = chainText Compound.toXPath ss := by
    intro ss
    induction ss with
    | nil => exact fun _ _ => rfl
    | cons s ss ih =>
        intro hc hv
        rw [List.forall_mem_cons] at hc hv
        have hrest := ih hc.2 hv.2
        rw [chainText] at hrest
        rw [chainText, List.flatMap_cons, List.append_assoc, hstep _ _ hc.1 hv.1, hrest]
  rw [Group.compounds, List.forall_mem_cons, List.forall_mem_map] at h hs
  exact hsteps g.chain (List.forall_mem_cons.mpr h) (List.forall_mem_cons.mpr hs)

/-- The ends of parts are those of the whole. -/
lemma isEnclosed_join {w : Text} {us : List Text} (hne : us ≠ []) (h : ∀ x ∈ us, IsEnclosed x) :
    IsEnclosed (join w us) := by
  induction us with
  | nil => exact absurd rfl hne
  | cons u us ih =>
      rw [List.forall_mem_cons] at h
      cases us with
      | nil =>
          rw [join_singleton]
          exact h.1
      | cons v us =>
          have hrest := ih (List.cons_ne_nil _ _) h.2
          rw [join_cons_cons]
          refine ⟨h.1.toIsTrim.append w hrest.toIsTrim, ?_⟩
          rw [List.getLast?_append_of_ne_nil _ hrest.ne_nil]
          exact hrest.noSlash

/-- The chains of a union of paths. -/
def chainsOf (path : Text) : Option (List Chain) :=
  (splitTop ['|'] (normalize path)).mapM fun b => chainOf (strip b)

/-- The selector of a union of paths is made of its chains. -/
lemma toCss_eq (path : Text) :
    toCss path = (chainsOf path).map fun cs => join ", ".toList (cs.map Chain.toCss) := by
  rw [toCss, chainsOf]
  cases normalize path with
  | nil => rfl
  | cons c r =>
      change ((splitTop ['|'] (c :: r)).mapM fun b => chainOf (strip b)).bind _ = _
      cases (splitTop ['|'] (c :: r)).mapM fun b => chainOf (strip b) <;> rfl

/-- **The chains of a union of paths** are read from it, if conditions can state their tests
and no value is shortened. -/
theorem chainsOf_paths (hne : gs ≠ []) (h : ∀ g ∈ gs, ∀ c ∈ g.compounds, c.IsStated)
    (hs : ∀ g ∈ gs, ∀ c ∈ g.compounds, ∀ t ∈ c.tests, squeeze t.value = t.value) :
    chainsOf (join " | ".toList (gs.map fun g => g.chain.toXPath)) = some (gs.map Group.chain) := by
  have hpaths : ∀ x ∈ gs.map fun g => g.chain.toXPath,
      (separators '|').Passes .outside x .outside ∧ IsEnclosed x ∧ squeeze x = x := by
    intro x hx
    obtain ⟨g, hg, rfl⟩ := List.mem_map.mp hx
    exact ⟨passes_chain (h g hg), isEnclosed_path (h g hg), squeeze_path (h g hg) (hs g hg)⟩
  have hread : ∀ gs : List Group, (∀ g ∈ gs, ∀ c ∈ g.compounds, c.IsStated) →
      (gs.map fun g => g.chain.toXPath).mapM chainOf = some (gs.map Group.chain) := by
    intro gs
    induction gs with
    | nil => exact fun _ => rfl
    | cons g gs ih =>
        intro hg
        rw [List.forall_mem_cons] at hg
        rw [List.map_cons, List.mapM_cons, chainOf_toXPath hg.1, ih hg.2]
        rfl
  have hne' : (gs.map fun g => g.chain.toXPath) ≠ [] := by simpa using hne
  have hchains := hread gs h
  generalize (gs.map fun g => g.chain.toXPath) = paths at hpaths hne' hchains
  have hsqueeze : squeeze (join " | ".toList paths) = join " | ".toList paths := by
    rw [squeeze_join (by decide) (by decide) fun x hx => (hpaths x hx).2.1.noSlash]
    congr 1
    exact (List.map_congr_left fun x hx => (hpaths x hx).2.2).trans (List.map_id _)
  have hends := isEnclosed_join (w := " | ".toList) hne' fun x hx => (hpaths x hx).2.1
  have hnormal : normalize (join " | ".toList paths) = join " | ".toList paths := by
    refine (normalize_of_ends hends.head fun d hd => ?_).trans hsqueeze
    rw [isSlashOrBlank, hends.last d hd, Bool.or_false, beq_eq_false_iff_ne]
    exact hends.noSlash d hd
  obtain ⟨p, ps, rfl⟩ := List.exists_cons_of_ne_nil hne'
  have hparts := splitTop_paths fun x hx => ⟨(hpaths x hx).1, (hpaths x hx).2.1.toIsTrim⟩
  have hmap := List.mapM_map (m := Option) (f := strip) (g := chainOf)
    (l := splitTop ['|'] (join " | ".toList (p :: ps)))
  rw [hparts, hchains] at hmap
  rw [chainsOf, hnormal]
  exact hmap.symm

end XPath

end Locator
