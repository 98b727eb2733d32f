/-
Canonical texts of selectors

* `Compound.writes_toCss`, `Group.writes_toCss`: compounds and groups are written as they are
  printed;
* `canonical`: the text of groups with one blank or one sign between compounds and one comma
  between groups;
* `writes_canonical`, `isFormed_canonical`, `isSelector_canonical`: **the canonical text** is a
  text of its groups.
-/
import Locator.Proofs.Css.Language

namespace Locator.Css

open Text

variable {c : Compound} {g : Group} {gs : List Group} {ss : List Step}

lemma areBlanks_singleton {b : Char} (h : isCssSpace b = true) : AreBlanks [b] := by
  simpa [AreBlanks] using h

lemma Test.toCss_ne_nil (t : Test) : t.toCss ≠ [] := by
  cases t <;> exact List.cons_ne_nil _ _

/-- A compound with a name is printed as the name and its tests. -/
lemma Compound.toCss_of_name (h : c.tag ≠ []) (hstar : c.tag ≠ ['*']) :
    c.toCss = c.tag ++ c.tests.flatMap Test.toCss := by
  have htag : (c.tag == ['*']) = false := by simpa using hstar
  have hne : (c.tag ++ c.tests.flatMap Test.toCss).isEmpty = false := by
    simpa using fun hnil => absurd hnil h
  rw [toCss, htag, if_neg Bool.false_ne_true]
  exact if_neg (by rw [hne]; exact Bool.false_ne_true)

/-- The asterisk is printed only where no test stands. -/
lemma Compound.toCss_of_star (hstar : c.tag = ['*']) :
    c.toCss = if c.tests = [] then ['*'] else c.tests.flatMap Test.toCss := by
  rw [toCss, hstar, beq_self_eq_true, if_pos rfl, List.nil_append]
  cases c.tests with
  | nil => rfl
  | cons t ts =>
      have hne : ((t :: ts).flatMap Test.toCss).isEmpty = false := by
        rw [List.flatMap_cons, List.isEmpty_eq_false_iff]
        exact List.append_ne_nil_of_left_ne_nil (Test.toCss_ne_nil t) _
      rw [if_neg (List.cons_ne_nil t ts)]
      exact if_neg (by rw [hne]; exact Bool.false_ne_true)

/-- A compound is written as it is printed. -/
lemma Compound.writes_toCss (h : c.tag ≠ []) : c.Writes Test.Escapes c.toCss := by
  refine ⟨c.tests.map Test.toCss, ?_, ?_⟩
  · rw [List.forall₂_map_right_iff, List.forall₂_same]
    exact fun _ _ => rfl
  · rw [← List.flatMap_def]
    by_cases hstar : c.tag = ['*']
    · rw [Compound.toCss_of_star hstar]
      split_ifs with hts
      · exact .inl (by rw [hstar, hts]; rfl)
      · exact .inr ⟨hstar, hts, rfl⟩
    · exact .inl (Compound.toCss_of_name h hstar)

/-- The sign between two compounds is written as it is printed. -/
lemma Combinator.writes_glue (how : Combinator) : how.Writes (Chain.glue how) := by
  cases how with
  | descendant => exact .descendant (areBlanks_singleton rfl) (List.cons_ne_nil _ _)
  | child => exact .child (areBlanks_singleton rfl) (areBlanks_singleton rfl)

/-- Further compounds are written as they are printed. -/
lemma restWrites_toCss (h : ∀ s ∈ ss, s.compound.tag ≠ []) :
    RestWrites Test.Escapes ss (ss.flatMap fun s => Chain.glue s.combinator ++ s.compound.toCss) := by
  induction ss with
  | nil => exact .nil
  | cons s ss ih =>
      rw [List.forall_mem_cons] at h
      rw [List.flatMap_cons, List.append_assoc]
      exact .cons (Combinator.writes_glue _) (Compound.writes_toCss h.1) (ih h.2)

/-- A group is written as it is printed. -/
lemma Group.writes_toCss (h : ∀ c ∈ g.compounds, c.tag ≠ []) :
    g.Writes Test.Escapes g.chain.toCss := by
  rw [Group.compounds, List.forall_mem_cons, List.forall_mem_map] at h
  exact ⟨_, _, Compound.writes_toCss h.1, restWrites_toCss h.2, rfl⟩

/-- The text of groups with one comma and one blank between each two of them. -/
def canonical (gs : List Group) : Text := join ", ".toList (gs.map fun g => g.chain.toCss)

/-- **The canonical text** is a text of its groups. -/
theorem writes_canonical (hne : gs ≠ []) (h : ∀ g ∈ gs, ∀ c ∈ g.compounds, c.tag ≠ []) :
    ListWrites Test.Escapes gs (canonical gs) := by
  induction gs with
  | nil => exact absurd rfl hne
  | cons g gs ih =>
      rw [List.forall_mem_cons] at h
      have hg := Group.writes_toCss h.1
      cases gs with
      | nil =>
          have hone := ListWrites.one hg areBlanks_nil
          rw [List.append_nil] at hone
          rwa [canonical, List.map_singleton, join_singleton]
      | cons g' gs =>
          have hall := ListWrites.cons hg areBlanks_nil (areBlanks_singleton (b := ' ') rfl)
            (ih (List.cons_ne_nil _ _) h.2)
          rw [canonical, List.map_cons, List.map_cons, join_cons_cons, List.append_assoc]
          exact hall

lemma Compound.tag_ne_nil_of_isFormed (h : c.isFormed = true) : c.tag ≠ [] := by
  intro hnil
  simp [isFormed, hnil, isPlainName] at h

/-- The canonical text of formed groups is one of their texts. -/
theorem isFormed_canonical (hne : gs ≠ []) (h : ∀ g ∈ gs, ∀ c ∈ g.compounds, c.isFormed = true) :
    IsFormed gs (canonical gs) where
  written := ⟨[], canonical gs, areBlanks_nil, writes_canonical hne fun g hg c hc =>
    Compound.tag_ne_nil_of_isFormed (h g hg c hc), rfl⟩
  formed := h

/-- The canonical text of plain groups is a selector. -/
theorem isSelector_canonical (hne : gs ≠ []) (h : ∀ g ∈ gs, ∀ c ∈ g.compounds, c.isPlain = true) :
    IsSelector gs (canonical gs) where
  written := (isFormed_canonical hne fun g hg c hc =>
    Compound.isFormed_of_isPlain (h g hg c hc)).written
  plain := h

end Locator.Css
