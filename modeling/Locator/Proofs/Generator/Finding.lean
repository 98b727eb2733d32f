/-
Finding elements by their steps

* `finds_absolute`, `finds_here`: **steps find** the element they are made for,
  from the document or from an element around it;
* `misses_cut_absolute`, `misses_cut_here`: what stays of steps that end in a
  blank misses it;
* `misses_absolute`: so do steps from the document that are too few or too many.
-/
import Locator.Proofs.Generator.Making
import Locator.Proofs.XPath.Evaluate

namespace Locator

open XPath

variable {d : Document} {namespaces : List (Text × Text)} {strategy : IndexStrategy} {c : Context}
  {x n r : Node} {a : Address} {way : List ℕ} {i : ℕ} {ss : List Text} {e : Expr}

/-! ### The texts of steps -/

lemma isXmlText_slashed (h : ∀ s ∈ ss, Text.isXmlText s) : Text.isXmlText (slashed ss) := by
  induction ss with
  | nil => rfl
  | cons s ss ih =>
      have hs := h s (by simp)
      rw [slashed_cons, Text.isXmlText_append, ih fun t ht => h t (by simp [ht]),
        Text.isXmlText_slash, hs]
      rfl

lemma isXmlText_keptSteps (h : ∀ s ∈ ss, Text.isXmlText s) :
    ∀ s ∈ keptSteps ss, Text.isXmlText s := by
  induction ss with
  | nil => simp [keptSteps]
  | cons s ss ih =>
      have ih := ih fun t ht => h t (by simp [ht])
      rw [keptSteps]
      split_ifs
      · exact ih
      · intro t ht
        rcases List.mem_cons.mp ht with rfl | ht
        · have hs := h s (by simp)
          rw [Text.isXmlText, List.all_eq_true] at hs ⊢
          exact fun c hc => hs c ((List.rdropWhile_prefix Text.isBlank s).subset hc)
        · exact h t (by simp [ht])

lemma isXmlText_steps (strategy : IndexStrategy)
    (hns : ∀ n ∈ Node.along d a way, n.HasXmlName) :
    ∀ s ∈ Node.steps strategy d a way, Text.isXmlText s := by
  intro s hs
  obtain ⟨n, hn, rfl⟩ := List.mem_map.mp hs
  obtain ⟨name, hname, hx⟩ := hns n hn
  exact isXmlText_stepText hname hx

lemma slashed_ne_nil (h : ss ≠ []) : slashed ss ≠ [] := by
  obtain ⟨s, ss, rfl⟩ := List.exists_cons_of_ne_nil h
  simp [slashed_cons]

/-- Steps from the document are an expression. -/
lemma read?_slashed (h : StepsRead 1 (slashed ss) .root e) (hne : ss ≠ []) :
    Expr.read? (slashed ss) = some e :=
  (reads_absolute h (slashed_ne_nil hne)).lift le_rfl (Nat.zero_le _) |>.read? (by decide)

/-- Steps from the point are an expression. -/
lemma read?_point (h : StepsRead 1 (slashed ss) .here e) (hne : ss ≠ []) :
    Expr.read? ('.' :: slashed ss) = some e :=
  (reads_here h (slashed_ne_nil hne)).lift le_rfl (Nat.zero_le _) |>.read? (by decide)

lemma read?_nil : Expr.read? [] = none := rfl

lemma steps_ne_nil (h : way ≠ []) : Node.steps strategy d a way ≠ [] := by
  obtain ⟨i, way, rfl⟩ := List.exists_cons_of_ne_nil h
  simp [Node.steps, Node.along]

/-! ### Steps from the document -/

/-- **Steps from the document** find the element at their end. -/
theorem finds_absolute (hd : d.HasClearTags) (hk : KeepsXml namespaces) (hc : StartsAt c x namespaces)
    (hx : x.document = d) (hs : strategy ≠ .never) (hw : way ≠ []) (hel : d.isElementAt way)
    (hns : ∀ n ∈ Node.along d [] way, n.IsNamed namespaces) :
    Finds (slashed (Node.steps strategy d [] way)) c namespaces ⟨d, way⟩ := by
  subst hx
  obtain ⟨Q, ⟨e, hread, hQ⟩, -, -, hto, honly⟩ := exists_leads_steps strategy hd hk
    (selects_root { place := .node x.address }) hns
  refine finds_of_selects hd.whole hc (isXmlText_slashed (isXmlText_steps strategy (hasXmlName_of_isNamed hns)))
    (read?_slashed hread (steps_ne_nil hw)) hQ rfl (Document.isElement_iff.mpr hel) fun b => ?_
  rw [List.append_nil] at hto honly
  exact ⟨honly hs (fun _ h => h) b, fun hb => hb ▸ hto rfl⟩

/-- Steps from the document select the element at their end, perhaps with others. -/
theorem exists_mem_absolute (hd : d.HasClearTags) (hk : KeepsXml namespaces)
    (hc : StartsAt c x namespaces) (hx : x.document = d) (hw : way ≠ []) (hel : d.isElementAt way)
    (hns : ∀ n ∈ Node.along d [] way, n.IsNamed namespaces) :
    ∃ ns, evaluateElements (slashed (Node.steps strategy d [] way)) c namespaces = .ok ns ∧
      ⟨d, way⟩ ∈ ns := by
  classical
  subst hx
  obtain ⟨Q, ⟨e, hread, hQ⟩, -, -, hto, -⟩ := exists_leads_steps strategy hd hk
    (selects_root { place := .node x.address }) hns
  have hQw : Q way := List.append_nil way ▸ hto rfl
  refine ⟨_, evaluateElements_eq hd.whole hc (isXmlText_slashed (isXmlText_steps strategy (hasXmlName_of_isNamed hns)))
    (read?_slashed hread (steps_ne_nil hw)) hQ (H := fun b => decide (Q b)) (by simp), ?_⟩
  rw [List.mem_filter, Document.mem_elements hd.whole]
  exact ⟨⟨rfl, hel⟩, by simpa using hQw⟩

/-- Steps from the document lead as many levels down as they are. -/
theorem misses_absolute (strategy : IndexStrategy) (hd : d.HasClearTags) (hk : KeepsXml namespaces) (hc : StartsAt c x namespaces)
    (hx : x.document = d) (hw : way ≠ []) (hns : ∀ n ∈ Node.along d a way, n.IsNamed namespaces)
    (hn : n.address.length ≠ way.length) :
    Misses (slashed (Node.steps strategy d a way)) c namespaces n := by
  subst hx
  obtain ⟨Q, ⟨e, hread, hQ⟩, hlen, hel, -⟩ := exists_leads_steps strategy hd hk
    (selects_root { place := .node x.address }) hns
  refine misses_of_selects hd.whole hc (isXmlText_slashed (isXmlText_steps strategy (hasXmlName_of_isNamed hns)))
    (read?_slashed hread (steps_ne_nil hw)) hQ fun b hb => ⟨hel hw b hb, ?_⟩
  rintro rfl
  obtain ⟨_, v, rfl, hv, hl⟩ := hlen _ hb
  exact hn (by rw [hv, List.append_nil, hl])

/-- What stays of steps from the document that end in a blank misses the element
they are made for, and all that are farther away than there are steps. -/
theorem misses_cut_absolute (hd : d.HasClearTags) (hk : KeepsXml namespaces)
    (hc : StartsAt c x namespaces) (hx : x.document = d)
    (hns : ∀ n ∈ Node.along d a (i :: way), n.IsNamed namespaces)
    (hcut : (⟨d, i :: (way ++ a)⟩ : Node).endsBlank strategy)
    (hn : n.address = i :: (way ++ a) ∨ way.length + 1 < n.address.length) :
    Misses (slashed (keptSteps (Node.steps strategy d a (i :: way)))) c namespaces n := by
  subst hx
  have hxml := isXmlText_slashed (isXmlText_keptSteps (isXmlText_steps strategy (hasXmlName_of_isNamed hns)))
  rcases keptSteps_cut hd hk (selects_root { place := .node x.address }) (by simp) hns hcut with
    hnil | ⟨p, ss, e', hkept, hp, hread⟩ | ⟨Q, ⟨e, hread, hQ⟩, hq⟩
  · rw [hnil]
    exact misses_of_malformed hc rfl read?_nil n
  · refine misses_of_malformed hc hxml ?_ n
    rw [hkept, slashed_cons]
    exact read?_broken_absolute (isBroken_of_colon hp) (by decide) hread
  · by_cases hne : keptSteps (Node.steps strategy x.document a (i :: way)) = []
    · rw [hne]
      exact misses_of_malformed hc rfl read?_nil n
    · refine misses_of_selects hd.whole hc hxml (read?_slashed hread hne) hQ fun b hb => ?_
      obtain ⟨hel, hself, _, v, rfl, hv, hl⟩ := hq b hb
      refine ⟨hel, ?_⟩
      rcases hn with hn | hn
      · rwa [hn]
      · rintro rfl
        rw [hv, List.append_nil] at hn
        omega

/-! ### Steps from an element -/

/-- **Steps from an element** find the element at their end. -/
theorem finds_here (hd : r.document.HasClearTags) (hk : KeepsXml namespaces)
    (hc : checkNamespaces namespaces = .ok ()) (hs : strategy ≠ .never) (hw : way ≠ [])
    (hel : r.document.isElementAt (way ++ r.address))
    (hns : ∀ n ∈ Node.along r.document r.address way, n.IsNamed namespaces) :
    Finds ('.' :: slashed (Node.steps strategy r.document r.address way)) (.node r) namespaces
      ⟨r.document, way ++ r.address⟩ := by
  obtain ⟨Q, ⟨e, hread, hQ⟩, -, -, hto, honly⟩ := exists_leads_steps strategy hd hk
    (selects_here { place := .node r.address } rfl) hns
  exact finds_of_selects hd.whole ⟨rfl, hc⟩ (isXmlText_slashed (isXmlText_steps strategy (hasXmlName_of_isNamed hns)))
    (read?_point hread (steps_ne_nil hw)) hQ rfl (Document.isElement_iff.mpr hel)
    fun b => ⟨honly hs (fun _ h => h) b, fun hb => hb ▸ hto rfl⟩

/-- What stays of steps from an element that end in a blank misses the element
they are made for. -/
theorem misses_cut_here (hd : r.document.HasClearTags) (hk : KeepsXml namespaces)
    (hc : checkNamespaces namespaces = .ok ())
    (hns : ∀ n ∈ Node.along r.document r.address (i :: way), n.IsNamed namespaces)
    (hcut : (⟨r.document, i :: (way ++ r.address)⟩ : Node).endsBlank strategy)
    (hne : keptSteps (Node.steps strategy r.document r.address (i :: way)) ≠ []) :
    Misses ('.' :: slashed (keptSteps (Node.steps strategy r.document r.address (i :: way))))
      (.node r) namespaces ⟨r.document, i :: (way ++ r.address)⟩ := by
  have hxml : Text.isXmlText ('.' :: slashed (keptSteps
      (Node.steps strategy r.document r.address (i :: way)))) :=
    isXmlText_slashed (isXmlText_keptSteps (isXmlText_steps strategy (hasXmlName_of_isNamed hns)))
  have hstart : StartsAt (.node r) r namespaces := ⟨rfl, hc⟩
  rcases keptSteps_cut hd hk (selects_here { place := .node r.address } rfl)
      (fun b hb => by rw [hb]) hns hcut with
    hnil | ⟨p, ss, e', hkept, hp, hread⟩ | ⟨Q, ⟨e, hread, hQ⟩, hq⟩
  · exact absurd hnil hne
  · refine misses_of_malformed hstart hxml ?_ _
    rw [hkept, slashed_cons]
    exact read?_broken_here (isBroken_of_colon hp) (by decide) hread
  · exact misses_of_selects hd.whole hstart hxml (read?_point hread hne) hQ
      fun b hb => ⟨(hq b hb).1, (hq b hb).2.1⟩

end Locator
