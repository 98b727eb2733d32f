/-
Steps that end in a blank

The last step of a path may end in a blank that is a character of a name. The
normal form of the path drops it, and what stays leads elsewhere.

* `of_mem_stepText`: the characters of steps, and `normalize_steps`: what stays of
  the steps of elements in the normal form of their path;
* `Node.EndsBlank`: the step of an element ends in a blank; `keptSteps_steps`: all
  steps stay if that of the last element does not;
* `Leads`: steps are read and lead from an expression to addresses;
* `keptSteps_cut`: **the steps that stay** of others, if the last one ends in a
  blank, are none, end in the middle of a step or lead elsewhere.
-/
import Locator.Proofs.Generator.Step
import Locator.Proofs.XPath.Broken

namespace Locator

open XPath

variable {strategy : IndexStrategy} {n : Node} {name : Name} {namespaces : List (Text × Text)}

/-! ### The characters of steps -/

lemma Name.isName_of_isXml (h : name.isXml = true) : Text.IsName name.base := by
  simp only [Name.isXml, Bool.and_eq_true] at h
  exact Text.isPathName_iff.mp h.1

/-- A prefix that is written is a name with a colon behind it. -/
lemma Name.writtenPrefix_eq (h : name.isXml = true) :
    name.writtenPrefix = [] ∨ ∃ p, Text.IsName p ∧ name.writtenPrefix = p ++ [':'] := by
  simp only [Name.isXml, Bool.and_eq_true] at h
  rw [Name.writtenPrefix]
  cases hp : name.pfx with
  | none => cases name.uri <;> simp
  | some p =>
      rw [hp, Bool.and_eq_true] at h
      obtain ⟨u, hu⟩ := Option.isSome_iff_exists.mp h.2.2
      rw [hu]
      exact .inr ⟨p, Text.isPathName_iff.mp h.2.1, rfl⟩

/-- The characters of steps. -/
lemma of_mem_stepText (hn : n.name? = some name) (hx : name.isXml = true) {c : Char}
    (hc : c ∈ n.stepText strategy) :
    Text.isNameChar c = true ∨ c = ':' ∨ c = '[' ∨ c = ']' := by
  rw [Node.stepText, hn, Option.map_some, Option.getD_some, Name.inPath_eq, List.mem_append,
    List.mem_append] at hc
  rcases hc with (hc | hc) | hc
  · rcases Name.writtenPrefix_eq hx with hp | ⟨p, hname, hp⟩
    · simp [hp] at hc
    · rw [hp, List.mem_append, List.mem_singleton] at hc
      exact hc.imp (hname.isNameChar c) .inl
  · exact .inl ((Name.isName_of_isXml hx).isNameChar c hc)
  · rw [Node.indexText] at hc
    split_ifs at hc
    · have hc : c = '[' ∨ c ∈ Text.decimal n.index ∨ c = ']' := by simpa using hc
      rcases hc with hc | hc | hc
      · exact .inr (.inr (.inl hc))
      · exact .inl (by simp [Text.isNameChar, Text.isDigit_of_mem_decimal hc])
      · exact .inr (.inr (.inr hc))
    · simp at hc

lemma stepText_ne_nil (hn : n.name? = some name) (hx : name.isXml = true) :
    n.stepText strategy ≠ [] := by
  have := (Name.isName_of_isXml hx).ne_nil
  simp [Node.stepText, hn, Name.inPath_eq, this]

lemma slash_not_mem_stepText (hn : n.name? = some name) (hx : name.isXml = true) :
    '/' ∉ n.stepText strategy := by
  intro hc
  have := of_mem_stepText hn hx hc
  revert this
  decide

lemma isXmlText_stepText (hn : n.name? = some name) (hx : name.isXml = true) :
    Text.isXmlText (n.stepText strategy) := by
  rw [Text.isXmlText, List.all_eq_true]
  intro c hc
  rcases of_mem_stepText hn hx hc with hc | rfl | rfl | rfl
  · exact Text.isXmlChar_of_isNameChar hc
  all_goals rfl

/-! ### Blanks at the end of steps -/

/-- Does the step of an element end in a blank? -/
def Node.endsBlank (strategy : IndexStrategy) (n : Node) : Bool :=
  !Generator.needsIndex n strategy &&
    n.name?.any fun name => name.base.getLast?.any Text.isBlank

/-- What stays of the step of an element whose step ends in no blank. -/
lemma dropEnd_stepText (hn : n.name? = some name) (hx : name.isXml = true)
    (h : n.endsBlank strategy = false) :
    Text.dropEnd Text.isBlank (n.stepText strategy) = n.stepText strategy := by
  refine Text.dropEnd_eq_self fun c hc => ?_
  rw [Node.stepText, hn, Option.map_some, Option.getD_some, Node.indexText] at hc
  rw [Node.endsBlank, hn] at h
  split_ifs at hc with hi
  · rw [← List.append_assoc, List.getLast?_concat] at hc
    rw [← Option.mem_some.mp hc]
    rfl
  · have hbase := (Name.isName_of_isXml hx).ne_nil
    have hlast := List.getLast?_eq_some_getLast hbase
    rw [List.append_nil, Name.inPath_eq, List.getLast?_append, hlast, Option.some_or] at hc
    simpa [hi, hlast, Option.mem_some.mp hc] using h

/-- What stays of a step that ends in a blank. -/
lemma dropEnd_stepText_of_endsBlank (hn : n.name? = some name) (hx : name.isXml = true)
    (h : n.endsBlank strategy) :
    Text.dropEnd Text.isBlank (n.stepText strategy) =
      name.writtenPrefix ++ Text.dropEnd Text.isBlank name.base := by
  have hi : Generator.needsIndex n strategy = false := by
    simp only [Node.endsBlank, Bool.and_eq_true, Bool.not_eq_true'] at h
    exact h.1
  have hpre : Text.dropEnd Text.isBlank name.writtenPrefix = name.writtenPrefix := by
    refine Text.dropEnd_eq_self fun c hc => ?_
    rcases Name.writtenPrefix_eq hx with hp | ⟨p, -, hp⟩
    · simp [hp] at hc
    · rw [hp, List.getLast?_concat] at hc
      rw [← Option.mem_some.mp hc]
      rfl
  rw [Node.stepText, Node.indexText, hn, hi, Option.map_some, Option.getD_some, if_neg (by simp),
    List.append_nil, Name.inPath_eq, Text.dropEnd_append, hpre]
  split_ifs with hb
  · simp [hb]
  · rfl

/-- What stays of a name that ends in a blank is another name or nothing. -/
lemma dropEnd_ne_base (hn : n.name? = some name) (h : n.endsBlank strategy) :
    Text.dropEnd Text.isBlank name.base ≠ name.base := by
  intro heq
  simp only [Node.endsBlank, hn, Option.any_some, Bool.and_eq_true, Option.any_eq_true] at h
  obtain ⟨c, hc, hb⟩ := h.2
  have := Text.getLast?_dropEnd c (heq ▸ hc)
  simp [hb] at this

/-- What stays of a name is a name if anything does. -/
lemma isName_dropEnd {s : Text} (h : Text.IsName s) (hne : Text.dropEnd Text.isBlank s ≠ []) :
    Text.IsName (Text.dropEnd Text.isBlank s) := by
  obtain ⟨t, ht⟩ := List.rdropWhile_prefix Text.isBlank s
  rw [← Text.dropEnd_eq] at ht
  obtain ⟨c, r, hcr⟩ := List.exists_cons_of_ne_nil hne
  obtain ⟨c', r', rfl, hc, hr⟩ := h
  rw [hcr] at ht ⊢
  obtain ⟨rfl, rfl⟩ := List.cons.inj ht
  exact ⟨c, r, rfl, hc, fun d hd => hr d (by simp [hd])⟩

/-! ### Where steps lead -/

/-- Steps, the innermost first, are read and lead from an expression to the
addresses that fulfil `Q`. -/
def Leads (d : Document) (namespaces : List (Text × Text)) (f : Frame) (e : Expr)
    (steps : List Text) (Q : Address → Prop) : Prop :=
  ∃ e', StepsRead 1 (slashed steps) e e' ∧ Selects ⟨d, namespaces⟩ e' f Q

/-- The steps of the elements on a way. -/
def Node.steps (strategy : IndexStrategy) (d : Document) (a : Address) (way : List ℕ) : List Text :=
  (Node.along d a way).map (Node.stepText strategy)

variable {d : Document} {a : Address} {f : Frame} {e : Expr} {P : Address → Prop} {way : List ℕ}

/-- The steps of elements lead along the way. -/
lemma exists_leads_steps (strategy : IndexStrategy) (hd : d.HasClearTags) (hk : KeepsXml namespaces)
    (h : Selects ⟨d, namespaces⟩ e f P) (hns : ∀ n ∈ Node.along d a way, n.IsNamed namespaces) :
    ∃ Q, Leads d namespaces f e (Node.steps strategy d a way) Q ∧
      (∀ b, Q b → ∃ c v, P c ∧ b = v ++ c ∧ v.length = way.length) ∧
      (way ≠ [] → ∀ b, Q b → d.isElementAt b) ∧
      (P a → Q (way ++ a)) ∧
      (strategy ≠ .never → (∀ c, P c → c = a) → ∀ b, Q b → b = way ++ a) := by
  obtain ⟨Q, hQ, hrest⟩ := exists_selects_chain strategy hd hk h hns
  exact ⟨Q, ⟨_, stepsRead_chain (hasXmlName_of_isNamed hns) e, hQ⟩, hrest⟩

/-- All steps stay if the last one ends in no blank. -/
lemma keptSteps_steps {i : ℕ} (hn : (⟨d, i :: (way ++ a)⟩ : Node).HasXmlName)
    (h : (⟨d, i :: (way ++ a)⟩ : Node).endsBlank strategy = false) :
    keptSteps (Node.steps strategy d a (i :: way)) = Node.steps strategy d a (i :: way) := by
  obtain ⟨name, hn, hx⟩ := hn
  exact keptSteps_eq_self (stepText_ne_nil hn hx) (dropEnd_stepText hn hx h) _

/-- A step to the children of another name does not lead to an element. -/
lemma not_passesAt_of_base_ne {b : Address} (pfx uri : Option Text) {base : Text}
    (hn : (⟨d, b⟩ : Node).name? = some name) (hbase : base ≠ name.base) :
    passesAt d (.name pfx base) uri b = false := by
  obtain ⟨m, hm, hname⟩ := exists_markup hn
  rw [Bool.eq_false_iff]
  intro hp
  obtain ⟨x, hx, hp⟩ := passesAt_iff.mp hp
  obtain rfl : m = x := Option.some.inj (hm.symm.trans hx)
  simp only [Markup.passes_name, hname, Option.any_some, Bool.and_eq_true, beq_iff_eq] at hp
  exact hbase hp.1.symm

/-- What stays of the last step if it ends in a blank: nothing, a prefix, or a step
to other elements beside. -/
lemma keptSteps_cons (hd : d.HasClearTags) (hk : KeepsXml namespaces)
    (h : Selects ⟨d, namespaces⟩ e f P) {i : ℕ}
    (hns : ∀ n ∈ Node.along d a (i :: way), n.IsNamed namespaces)
    (hcut : (⟨d, i :: (way ++ a)⟩ : Node).endsBlank strategy) :
    keptSteps (Node.steps strategy d a (i :: way)) = keptSteps (Node.steps strategy d a way) ∨
      (∃ p ss e', keptSteps (Node.steps strategy d a (i :: way)) = (p ++ [':']) :: ss ∧
        Text.IsName p ∧ StepsRead 1 (slashed ss) e e') ∨
      ∃ Q, Leads d namespaces f e (keptSteps (Node.steps strategy d a (i :: way))) Q ∧
        ∀ b, Q b → d.isElementAt b ∧ b ≠ i :: (way ++ a) ∧
          ∃ c v, P c ∧ b = v ++ c ∧ v.length ≤ way.length + 1 := by
  obtain ⟨name, hn, hx, hb⟩ := hns ⟨d, i :: (way ++ a)⟩ (by simp [Node.along])
  have hns' : ∀ n ∈ Node.along d a way, n.IsNamed namespaces :=
    fun n hn => hns n (by simp [Node.along, hn])
  have hsteps : Node.steps strategy d a (i :: way) =
      Node.stepText strategy ⟨d, i :: (way ++ a)⟩ :: Node.steps strategy d a way := rfl
  rw [hsteps, keptSteps, dropEnd_stepText_of_endsBlank hn hx hcut]
  by_cases hbase : Text.dropEnd Text.isBlank name.base = []
  · rcases Name.writtenPrefix_eq hx with hp | ⟨p, hname, hp⟩
    · exact .inl (by simp [hbase, hp])
    · refine .inr (.inl ⟨p, Node.steps strategy d a way, _, ?_, hname, stepsRead_chain (hasXmlName_of_isNamed hns') e⟩)
      simp [hbase, hp]
  · refine .inr (.inr ?_)
    -- What stays is read as a step to the children of the shorter name.
    let short : Name := { name with base := Text.dropEnd Text.isBlank name.base }
    have hshort : short.isXml = true := by
      have := Text.isPathName_iff.mpr (isName_dropEnd (Name.isName_of_isXml hx) hbase)
      simp only [Name.isXml, Bool.and_eq_true] at hx ⊢
      exact ⟨this, hx.2⟩
    have hread : StepReads 1 (short.writtenPrefix ++ short.base) .child short.test [] := by
      rw [← Name.inPath_eq]
      exact (testReads_inPath hshort).step 1
    obtain ⟨Q, ⟨e', hchain, hQ⟩, hlen, -⟩ := exists_leads_steps strategy hd hk h hns'
    have hbound : short.IsBound namespaces := hb
    have hchild := hQ.child (testUri_test hk hbound)
    have hlast : StepsRead 1 ('/' :: (short.writtenPrefix ++ short.base) ++ []) e'
        (.step e' .child short.test []) := .child hread (.nil _)
    rw [if_neg (by simp [hbase])]
    refine ⟨_, ⟨_, ?_, hchild⟩, ?_⟩
    · have happ := hchain.append hlast
      rw [List.append_nil] at happ
      rw [slashed_cons]
      exact happ
    · rintro b ⟨c, hc, j, rfl, hj⟩
      obtain ⟨c', v, hc', rfl, hv⟩ := hlen c hc
      refine ⟨isElementAt_of_passesAt hj, ?_, c', j :: v, hc', rfl, by simp [hv]⟩
      intro heq
      have := not_passesAt_of_base_ne (if short.uri.isSome then short.pfx else none)
        short.uri hn (dropEnd_ne_base hn hcut)
      rw [heq] at hj
      exact absurd hj (by simpa [Name.test] using this)

/-- **The steps that stay** of steps the last of which ends in a blank: there are
none, or they end in a prefix, or they lead to other elements that are not farther
away. -/
theorem keptSteps_cut (hd : d.HasClearTags) (hk : KeepsXml namespaces)
    (h : Selects ⟨d, namespaces⟩ e f P) (hP : ∀ c, P c → c.length ≤ a.length) {i : ℕ}
    (hns : ∀ n ∈ Node.along d a (i :: way), n.IsNamed namespaces)
    (hcut : (⟨d, i :: (way ++ a)⟩ : Node).endsBlank strategy) :
    keptSteps (Node.steps strategy d a (i :: way)) = [] ∨
      (∃ p ss e', keptSteps (Node.steps strategy d a (i :: way)) = (p ++ [':']) :: ss ∧
        Text.IsName p ∧ StepsRead 1 (slashed ss) e e') ∨
      ∃ Q, Leads d namespaces f e (keptSteps (Node.steps strategy d a (i :: way))) Q ∧
        ∀ b, Q b → d.isElementAt b ∧ b ≠ i :: (way ++ a) ∧
          ∃ c v, P c ∧ b = v ++ c ∧ v.length ≤ way.length + 1 := by
  induction way generalizing i with
  | nil =>
      rcases keptSteps_cons hd hk h hns hcut with hkept | hrest
      · exact .inl hkept
      · exact .inr hrest
  | cons j way ih =>
      rcases keptSteps_cons hd hk h hns hcut with hkept | hrest
      · rw [hkept]
        have hns' : ∀ n ∈ Node.along d a (j :: way), n.IsNamed namespaces :=
          fun n hn => hns n (by rw [Node.along]; exact List.mem_cons_of_mem _ hn)
        -- The steps in front lead to elements that are nearer.
        have hnear : ∀ b, (∃ c v, P c ∧ b = v ++ c ∧ v.length ≤ way.length + 1) →
            b ≠ i :: (j :: way ++ a) ∧
              ∃ c v, P c ∧ b = v ++ c ∧ v.length ≤ (j :: way).length + 1 := by
          rintro _ ⟨c, v, hc, rfl, hv⟩
          refine ⟨fun heq => ?_, c, v, hc, rfl, by simp; omega⟩
          have hl := congrArg List.length heq
          have := hP c hc
          simp only [List.length_append, List.length_cons] at hl
          omega
        by_cases hj : (⟨d, j :: (way ++ a)⟩ : Node).endsBlank strategy
        · rcases ih hns' hj with hnil | hbroken | ⟨Q, hQ, hq⟩
          · exact .inl hnil
          · exact .inr (.inl hbroken)
          · exact .inr (.inr ⟨Q, hQ, fun b hb => ⟨(hq b hb).1, hnear b (hq b hb).2.2⟩⟩)
        · obtain ⟨Q, hQ, hlen, hel, -⟩ := exists_leads_steps strategy hd hk h hns'
          rw [keptSteps_steps (hns' _ (by simp [Node.along])).hasXmlName (by simpa using hj)]
          refine .inr (.inr ⟨Q, hQ, fun b hb => ⟨hel (by simp) b hb, hnear b ?_⟩⟩)
          obtain ⟨c, v, hc, rfl, hv⟩ := hlen b hb
          exact ⟨c, v, hc, rfl, by simp [hv]⟩
      · exact .inr hrest

end Locator
