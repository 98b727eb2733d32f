/-
The shortest spelling of a path

* `IsPlainStep`: a step that is a name, perhaps with a position: such are the steps of
  elements in no namespace, what `dropIndex` leaves of them (`dropIndex_stepText`), and
  what stays of them in a normal form (`isPlainStep_of_mem_keptSteps`);
* `exists_leads_plain`: such steps **lead on alike** from what selects alike;
* `evaluateElements_inside`, `selectsOnly_slashed`: behind the name of the root element
  a path selects from the root element what it selects as a whole from the document;
* `Generator.shortest_eq`: **the answer of the search** for the shortest spelling.
-/
import Locator.Proofs.Generator.Below
import Locator.Proofs.Generator.Misread
import Locator.Proofs.Generator.Search

namespace Locator

open XPath

variable {d : Document} {n k root : Node} {strategy : IndexStrategy} {name : Name} {s tag : Text}
  {ss : List Text} {namespaces : List (Text × Text)} {i : ℕ}

/-! ### Plain steps -/

/-- A name, perhaps with a position. -/
def IsPlainStep (s : Text) : Prop :=
  ∃ base, Text.IsName base ∧ (s = base ∨ ∃ ds, IsDigits ds ∧ s = base ++ '[' :: ds ++ [']'])

namespace IsPlainStep

lemma ne_nil (h : IsPlainStep s) : s ≠ [] := by
  obtain ⟨base, hb, rfl | ⟨ds, -, rfl⟩⟩ := h
  · exact hb.ne_nil
  · simp [hb.ne_nil]

/-- The characters of plain steps. -/
lemma of_mem (h : IsPlainStep s) {c : Char} (hc : c ∈ s) :
    Text.isNameChar c = true ∨ c = '[' ∨ c = ']' := by
  obtain ⟨base, hb, rfl | ⟨ds, hds, rfl⟩⟩ := h
  · exact .inl (hb.isNameChar c hc)
  · have hc : c ∈ base ∨ c = '[' ∨ c ∈ ds ∨ c = ']' := by simpa using hc
    rcases hc with hc | hc | hc | hc
    · exact .inl (hb.isNameChar c hc)
    · exact .inr (.inl hc)
    · exact .inl (by simp [Text.isNameChar, hds.2 c hc])
    · exact .inr (.inr hc)

lemma slash_not_mem (h : IsPlainStep s) : '/' ∉ s := by
  intro hc
  have := h.of_mem hc
  revert this
  decide

lemma isXmlText (h : IsPlainStep s) : Text.isXmlText s := by
  rw [Text.isXmlText, List.all_eq_true]
  intro c hc
  rcases h.of_mem hc with hc | rfl | rfl
  · exact Text.isXmlChar_of_isNameChar hc
  all_goals rfl

/-- What stays of a plain step that loses the blanks at its end. -/
lemma dropEnd (h : IsPlainStep s) (hne : Text.dropEnd Text.isBlank s ≠ []) :
    IsPlainStep (Text.dropEnd Text.isBlank s) := by
  obtain ⟨base, hb, rfl | ⟨ds, hds, rfl⟩⟩ := h
  · exact ⟨_, isName_dropEnd hb hne, .inl rfl⟩
  · rw [Text.dropEnd_eq_self]
    · exact ⟨base, hb, .inr ⟨ds, hds, rfl⟩⟩
    · intro c hc
      rw [List.getLast?_concat] at hc
      rw [← Option.mem_some.mp hc]
      rfl

/-- A plain step is read as a step to the children of a name, perhaps at a position. -/
lemma exists_stepReads (h : IsPlainStep s) : ∃ base es,
    StepReads 1 s .child (.name none base) es ∧ (es = [] ∨ ∃ v, es = [.number v]) := by
  obtain ⟨base, hb, rfl | ⟨ds, hds, rfl⟩⟩ := h
  · exact ⟨s, [], (testReads_name hb).step 1, .inl rfl⟩
  · exact ⟨base, _, (testReads_name hb).step_predicate ((reads_digits hds).lift (by omega) (by omega)), .inr ⟨_, rfl⟩⟩

end IsPlainStep

lemma isPlainStep_of_mem_keptSteps (h : ∀ s ∈ ss, IsPlainStep s) :
    ∀ s ∈ keptSteps ss, IsPlainStep s := by
  induction ss with
  | nil => simp [keptSteps]
  | cons s ss ih =>
      rw [keptSteps]
      split_ifs with hs
      · exact ih fun t ht => h t (by simp [ht])
      · rw [List.forall_mem_cons] at h ⊢
        exact ⟨h.1.dropEnd hs, h.2⟩

/-- The step of an element in no namespace. -/
lemma stepText_of_uri (hn : k.name? = some name) (hu : name.uri = none) :
    k.stepText strategy = name.base ++ k.indexText strategy := by
  simp [Node.stepText, hn, Name.inPath, hu]

lemma isPlainStep_stepText (hn : k.name? = some name) (hu : name.uri = none)
    (hx : name.isXml = true) : IsPlainStep (k.stepText strategy) := by
  refine ⟨name.base, Name.isName_of_isXml hx, ?_⟩
  rw [stepText_of_uri hn hu, Node.indexText]
  split_ifs
  · exact .inr ⟨_, isDigits_decimal k.index, by simp⟩
  · exact .inl (by simp)

/-- Without its position the step of an element is its name. -/
lemma dropIndex_stepText (hn : k.name? = some name) (hu : name.uri = none)
    (hx : name.isXml = true) : dropIndex (k.stepText strategy) = k.stepText .never := by
  have hname := Name.isName_of_isXml hx
  have hnever : k.stepText .never = name.base := by
    rw [stepText_of_uri hn hu]
    simp [Node.indexText, Generator.needsIndex]
  rw [hnever, stepText_of_uri hn hu, Node.indexText]
  split_ifs with hi
  · obtain ⟨hne, hdigits⟩ := isDigits_decimal k.index
    exact dropIndex_append ⟨_, hne, fun d hd => Text.isDigit_of_decimal (hdigits d hd), rfl⟩ _
  · rw [List.append_nil]
    obtain ⟨c, r, hcr⟩ := List.exists_cons_of_ne_nil (List.reverse_ne_nil_iff.mpr hname.ne_nil)
    have hc : Text.isNameChar c = true :=
      hname.isNameChar c (List.mem_reverse.mp (hcr ▸ List.mem_cons_self))
    have hline : c ≠ '\n' := Text.ne_of_isNameChar hc rfl
    have hclose : c ≠ ']' := Text.ne_of_isNameChar hc rfl
    have hdrop : dropIndexReversed? (c :: r) = none := by
      rw [dropIndexReversed?]
      simpa using hclose
    rw [dropIndex, hcr]
    split
    · next h => exact absurd (List.cons.inj h).1 hline
    · rw [hdrop, Option.getD_none, ← hcr, List.reverse_reverse]

/-! ### Where plain steps lead -/

/-- Plain steps **lead on alike** from what selects alike. -/
theorem exists_leads_plain (hss : ∀ s ∈ ss, IsPlainStep s) {f f' : Frame} {e e' : Expr}
    {P : Address → Prop} (h : Selects ⟨d, namespaces⟩ e f P)
    (h' : Selects ⟨d, namespaces⟩ e' f' P) :
    ∃ Q, Leads d namespaces f e ss Q ∧ Leads d namespaces f' e' ss Q := by
  induction ss with
  | nil => exact ⟨P, ⟨e, .nil e, h⟩, ⟨e', .nil e', h'⟩⟩
  | cons s ss ih =>
      rw [List.forall_mem_cons] at hss
      obtain ⟨Q, ⟨x, hx, hQ⟩, ⟨x', hx', hQ'⟩⟩ := ih hss.2
      obtain ⟨base, es, hs, hes⟩ := hss.1.exists_stepReads
      have hread : ∀ {e x : Expr}, StepsRead 1 (slashed ss) e x →
          StepsRead 1 (slashed (s :: ss)) e (.step x .child (.name none base) es) := by
        intro e x hx
        have hlast : StepsRead 1 ('/' :: s ++ []) x (.step x .child (.name none base) es) :=
          .child hs (.nil _)
        rw [slashed_cons]
        simpa using hx.append hlast
      have hu : (⟨d, namespaces⟩ : Env).testUri (.name none base) = .ok none := rfl
      rcases hes with rfl | ⟨v, rfl⟩
      · exact ⟨_, ⟨_, hread hx, hQ.child hu⟩, ⟨_, hread hx', hQ'.child hu⟩⟩
      · have hv : ∀ b, passesAt d (.name none base) none b → ∀ size, ∃ r,
            eval ⟨d, namespaces⟩ (.number v)
              ⟨.node b, some (positionAt d (.name none base) none b), some size⟩ = .ok r ∧
            holdsAt (positionAt d (.name none base) none b) r =
              v.eq (.ofNat (positionAt d (.name none base) none b)) :=
          fun b _ size => ⟨.number v, by rw [eval], rfl⟩
        exact ⟨_, ⟨_, hread hx, hQ.child_where hu hv⟩, ⟨_, hread hx', hQ'.child_where hu hv⟩⟩

/-! ### Paths from the root element -/

/-- From a document expressions start at its root element. -/
lemma evaluateElements_document (hroot : d.root? = some root) (s : Text)
    (namespaces : List (Text × Text)) :
    evaluateElements s (.document d) namespaces = evaluateElements s (.node root) namespaces := by
  have hsource := Context.source_eq_of_startNode (c := .document d) (n := root)
    (by simp [startNode, hroot])
  have hsource' : (Context.node root).source = root.document := rfl
  rw [evaluateElements, evaluateElements, hsource, hsource', evaluate, evaluate, startNode,
    startNode, hroot]

/-- What a text selects are elements of the document it is evaluated in. -/
lemma document_of_evaluateElements {c : Context} {xs : List Node}
    (h : evaluateElements s c namespaces = .ok xs) {x : Node} (hx : x ∈ xs) :
    x.document = c.source := by
  obtain ⟨ps, -, h⟩ := bind_eq_ok.mp h
  obtain rfl := Except.ok.inj h
  obtain ⟨p, -, hp⟩ := List.mem_filterMap.mp hx
  cases p with
  | node a =>
      simp only at hp
      split_ifs at hp
      obtain rfl := Option.some.inj hp
      rfl
  | _ => simp at hp

/-- The root element of a document without namespaces, and its name. -/
structure IsRootNamed (d : Document) (root : Node) (name : Name) : Prop where
  bare : d.IsBare
  isRoot : d.root? = some root
  named : root.name? = some name
  xml : name.isXml = true

namespace IsRootNamed

variable (h : IsRootNamed d root name)
include h

lemma exists_address : ∃ i, root = ⟨d, [i]⟩ ∧ ∀ j, d.isElementAt [j] → j = i := by
  obtain ⟨i, hi, -, hu⟩ := h.bare.whole.exists_root
  refine ⟨i, ?_, hu⟩
  simpa [Document.root?, Document.rootAddress?, hi, eq_comm] using h.isRoot

lemma document_eq : root.document = d := by
  obtain ⟨i, rfl, -⟩ := h.exists_address
  rfl

lemma isElement : root.isElement := by simp [Node.isElement, h.named]

lemma uri : name.uri = none := by
  obtain ⟨m, hm, hname⟩ := exists_markup h.named
  rw [h.document_eq] at hm
  exact (h.bare.hasBareNames.of_name? hm hname).1

lemma isName : Text.IsName name.base := Name.isName_of_isXml h.xml

lemma stepName_eq : Heuristic.stepName root = .ok name.base := by
  rw [Locator.stepName_eq h.named h.xml, Name.inPath, h.uri]
  rfl

/-- The step to the root element selects it. -/
lemma selects_step (f : Frame) : Selects ⟨d, namespaces⟩
    (.step .root .child (.name none name.base) []) f (· = root.address) := by
  obtain ⟨i, rfl, hu⟩ := h.exists_address
  have htest : name.test = .name none name.base := by simp [Name.test, h.uri]
  have hself := passesAt_self h.bare.hasClearTags h.named
  rw [htest, h.uri] at hself
  refine ((selects_root f).child rfl).congr fun b => ?_
  constructor
  · rintro ⟨_, rfl, j, rfl, hp⟩
    rw [hu j (isElementAt_of_passesAt hp)]
  · rintro rfl
    exact ⟨[], rfl, i, rfl, hself⟩

/-- Behind the name of the root element a path selects from there **what it selects as
a whole** from the document. -/
theorem evaluateElements_inside (hcheck : checkNamespaces namespaces = .ok ())
    (hss : ∀ s ∈ ss, IsPlainStep s) (hne : ss ≠ []) :
    evaluateElements ('.' :: slashed ss) (.node root) namespaces =
      evaluateElements (slashed (ss ++ [name.base])) (.document d) namespaces := by
  classical
  obtain ⟨i, rfl, -⟩ := h.exists_address
  have hstart : StartsAt (.node ⟨d, [i]⟩) ⟨d, [i]⟩ namespaces := ⟨rfl, hcheck⟩
  have hstart' : StartsAt (.document d) ⟨d, [i]⟩ namespaces :=
    ⟨by simp [startNode, h.isRoot], hcheck⟩
  have hxml : Text.isXmlText ('.' :: slashed ss) :=
    isXmlText_slashed fun s hs => (hss s hs).isXmlText
  have hplain : ∀ s ∈ ss ++ [name.base], IsPlainStep s := by
    intro s hs
    rcases List.mem_append.mp hs with hs | hs
    · exact hss s hs
    · rw [List.mem_singleton.mp hs]
      exact ⟨name.base, h.isName, .inl rfl⟩
  have hxml' := isXmlText_slashed fun s hs => (hplain s hs).isXmlText
  have hhere : Selects ⟨d, namespaces⟩ .here { place := .node [i] } (· = [i]) :=
    selects_here _ rfl
  obtain ⟨Q, ⟨e, hread, hQ⟩, ⟨e', hread', hQ'⟩⟩ :=
    exists_leads_plain hss hhere (h.selects_step { place := .node [i] })
  have htop : StepsRead 1 ('/' :: name.base ++ []) .root
      (.step .root .child (.name none name.base) []) :=
    .child ((testReads_name h.isName).step 1) (.nil _)
  have hwhole : StepsRead 1 (slashed (ss ++ [name.base])) .root e' := by
    rw [slashed_append, slashed_cons]
    simpa [slashed] using htop.append hread'
  have hpoint := evaluateElements_eq (n := ⟨d, [i]⟩) (H := fun b => decide (Q b)) h.bare.whole
    hstart hxml (read?_point hread hne) hQ (by simp)
  have habsolute := evaluateElements_eq (n := ⟨d, [i]⟩) (H := fun b => decide (Q b)) h.bare.whole
    hstart' hxml' (read?_slashed hwhole (by simp)) hQ' (by simp)
  exact hpoint.trans habsolute.symm

variable (namespaces) in
/-- A path of plain steps, unless it is the name of the root element by itself, is
evaluated in the search with the result that it has from the document. -/
theorem exists_plan_slashed (hss : ∀ s ∈ ss, IsPlainStep s) (hne : ss ≠ [])
    (hother : ss ≠ [name.base]) :
    ∃ e, Plan.of (slashed ss) (.node root) = .ok (.expression e) ∧
      (checkNamespaces namespaces = .ok () →
        evaluateElements e (.node root) namespaces =
          evaluateElements (slashed ss) (.document d) namespaces) := by
  obtain ⟨init, top, rfl⟩ := (List.eq_nil_or_concat ss).resolve_left hne
  rw [List.concat_eq_append] at hss hother ⊢
  have hinit : ∀ s ∈ init, IsPlainStep s := fun s hs => hss s (by simp [hs])
  have htop : IsPlainStep top := hss top (by simp)
  have hname : IsPlainStep name.base := ⟨name.base, h.isName, .inl rfl⟩
  have htext : slashed (init ++ [top]) = '/' :: (top ++ slashed init) := by
    rw [slashed_append]
    simp [slashed]
  by_cases hsame : top = name.base
  · subst hsame
    have hnil : init ≠ [] := fun hnil => hother (by rw [hnil, List.nil_append])
    obtain ⟨c, r, hr⟩ := List.exists_cons_of_ne_nil (slashed_ne_nil hnil)
    obtain rfl := head?_slashed init c (by simp [hr])
    refine ⟨'.' :: slashed init, ?_, fun hcheck => h.evaluateElements_inside hcheck hinit hnil⟩
    rw [htext, hr]
    exact Plan.of_inside h.isElement h.stepName_eq r
  · refine ⟨slashed (init ++ [top]), ?_, fun _ => (evaluateElements_document h.isRoot _ _).symm⟩
    rw [htext]
    refine Plan.of_other h.isElement h.stepName_eq (fun heq => hsame ?_) (fun hpre => hsame ?_)
    · exact eq_of_slashes htop.slash_not_mem hname.slash_not_mem (head?_slashed init)
        (t := []) (by simp) (by simpa using heq)
    · rw [List.cons_append, List.prefix_cons_inj] at hpre
      obtain ⟨t, ht⟩ := hpre
      exact eq_of_slashes htop.slash_not_mem hname.slash_not_mem (head?_slashed init)
        (t := '/' :: t) (by simp) (by simpa using ht.symm)

end IsRootNamed

/-! ### The candidates of plain steps -/

/-- A spelling behind two slashes stays one. -/
lemma normalize_inside (s : Text) :
    normalize ('/' :: '/' :: s) = [] ∨ ∃ t, normalize ('/' :: '/' :: s) = '/' :: '/' :: t := by
  rw [normalize_of_head (by simp; decide)]
  have happ := Text.dropEnd_append isSlashOrBlank ['/', '/'] s
  rw [List.cons_append, List.cons_append, List.nil_append] at happ
  rw [happ]
  split_ifs
  · exact .inl rfl
  · exact .inr ⟨_, rfl⟩

/-- Elements in no namespace whose names XML allows. -/
def Node.IsPlain (k : Node) : Prop :=
  ∃ name, k.name? = some name ∧ name.uri = none ∧ name.isXml = true

lemma Node.IsPlain.hasXmlName (h : k.IsPlain) : k.HasXmlName := by
  obtain ⟨name, hn, -, hx⟩ := h
  exact ⟨name, hn, hx⟩

variable {ns : List Node} {c : Text}

lemma isPlainStep_of_mem_map (hns : ∀ k ∈ ns, k.IsPlain) :
    ∀ s ∈ ns.map (Node.stepText strategy), IsPlainStep s := by
  intro s hs
  obtain ⟨k, hk, rfl⟩ := List.mem_map.mp hs
  obtain ⟨name, hn, hu, hx⟩ := hns k hk
  exact isPlainStep_stepText hn hu hx

lemma normalize_plain {ss : List Text} (hss : ∀ s ∈ ss, IsPlainStep s) :
    normalize (slashed ss) = slashed (keptSteps ss) :=
  normalize_slashed fun s hs => ⟨(hss s hs).ne_nil, (hss s hs).slash_not_mem⟩

/-- **The candidates** for steps of elements in no namespace: plain steps from the
document, or something behind two slashes. -/
theorem of_mem_candidates (hns : ∀ k ∈ ns, k.IsPlain) (hne : ns ≠ [])
    (hc : c ∈ candidates (ns.map (Node.stepText strategy)).reverse) :
    (∃ ss, ss ≠ [] ∧ (∀ s ∈ ss, IsPlainStep s) ∧ c = slashed ss) ∨ ∃ t, c = '/' :: '/' :: t := by
  obtain ⟨-, hcne, s, hs, rfl⟩ := mem_candidates.mp hc
  have hbare : (ns.map (Node.stepText strategy)).reverse.map dropIndex =
      (ns.map (Node.stepText .never)).reverse := by
    rw [List.map_reverse, List.map_map]
    congr 1
    refine List.map_congr_left fun k hk => ?_
    obtain ⟨name, hn, hu, hx⟩ := hns k hk
    exact dropIndex_stepText hn hu hx
  have hslashed : ∀ strategy, normalize (slashed (ns.map (Node.stepText strategy))) ≠ [] →
      ∃ ss, ss ≠ [] ∧ (∀ s ∈ ss, IsPlainStep s) ∧
        normalize (slashed (ns.map (Node.stepText strategy))) = slashed ss := by
    intro strategy hne
    have hplain : ∀ s ∈ ns.map (Node.stepText strategy), IsPlainStep s :=
      isPlainStep_of_mem_map hns
    rw [normalize_plain hplain] at hne ⊢
    exact ⟨_, fun hnil => hne (by rw [hnil]; rfl), isPlainStep_of_mem_keptSteps hplain, rfl⟩
  rw [spellings, hbare, List.mem_cons, List.mem_cons, List.mem_flatMap,
    path_reverse (by simpa using hne), path_reverse (by simpa using hne)] at hs
  rcases hs with rfl | rfl | ⟨x, -, hs⟩
  · exact .inl (hslashed _ hcne)
  · exact .inl (hslashed _ hcne)
  · obtain ⟨t, rfl⟩ : ∃ t, s = '/' :: '/' :: t := by
      rcases List.mem_cons.mp hs with rfl | hs
      · exact ⟨_, rfl⟩
      · exact ⟨_, List.mem_singleton.mp hs⟩
    exact .inr ((normalize_inside t).resolve_left hcne)

/-- The whole path is a candidate if it keeps all its steps. -/
lemma slashed_mem_candidates (hns : ∀ k ∈ ns, k.IsPlain) (hne : ns ≠ [])
    (hkept : keptSteps (ns.map (Node.stepText strategy)) = ns.map (Node.stepText strategy)) :
    slashed (ns.map (Node.stepText strategy)) ∈
      candidates (ns.map (Node.stepText strategy)).reverse := by
  have hmap : ns.map (Node.stepText strategy) ≠ [] := by simpa using hne
  refine mem_candidates.mpr ⟨by simpa using hne, slashed_ne_nil hmap,
    slashed (ns.map (Node.stepText strategy)), ?_, ?_⟩
  · rw [spellings, path_reverse hmap]
    exact List.mem_cons_self
  · rw [normalize_plain (isPlainStep_of_mem_map hns), hkept]

/-- **A candidate** that selects an element alone in the search does so from the
document. -/
theorem IsRootNamed.of_selectsOnly (h : IsRootNamed d root name) (hns : ∀ k ∈ ns, k.IsPlain)
    (hne : ns ≠ []) (hc : c ∈ candidates (ns.map (Node.stepText strategy)).reverse)
    (hn : root.same n = false) (hsel : (Thing.node root).SelectsOnly namespaces n c) :
    ∃ x, evaluateElements c (.document d) namespaces = .ok [x] ∧ n.same x := by
  have hexpression : ∀ e, Plan.of c (.node root) = .ok (.expression e) →
      ∃ x, evaluateElements e (.node root) namespaces = .ok [x] ∧ n.same x := by
    intro e hplan
    rcases hsel with ⟨x, hx, -⟩ | ⟨e', x, hx, heval, hsame⟩
    · rw [hplan] at hx
      simp at hx
    · obtain rfl : e = e' := by simpa [hplan] using hx
      exact ⟨x, heval, hsame⟩
  rcases of_mem_candidates hns hne hc with ⟨ss, hss, hplain, rfl⟩ | ⟨t, rfl⟩
  · by_cases hother : ss = [name.base]
    · subst hother
      have hself : slashed [name.base] = '/' :: name.base := by simp [slashed]
      rw [Thing.SelectsOnly, hself, Plan.of_tag h.isElement h.stepName_eq] at hsel
      simp [hn] at hsel
    · obtain ⟨e, hplan, heval⟩ := h.exists_plan_slashed namespaces hplain hss hother
      obtain ⟨x, hx, hsame⟩ := hexpression e hplan
      exact ⟨x, by rw [← heval (checkNamespaces_of_evaluateElements hx), hx], hsame⟩
  · have hplain := Generator.hasPlainName_of_isBare (h.document_eq.symm ▸ h.bare) h.isElement
    have hsay : ∀ r, (Thing.node root).element? = some r → r.pathName?.isSome := by
      intro r hr
      obtain rfl : root = r := by simpa [Thing.element?, h.isElement] using hr
      exact Generator.pathName?_of_stepName h.stepName_eq
    obtain ⟨x, hx, hsame⟩ := hexpression _ (Plan.of_inside_document hplain hsay t)
    exact ⟨x, by rw [evaluateElements_document h.isRoot, hx], hsame⟩

/-! ### The shortest spelling -/

namespace Generator

variable {g : Generator} {o : Option Options} {m : Making} {r path : Text} {way : List ℕ}

/-- Steps are made for elements whose names XML allows. -/
lemma isPlain_of_stepsOf (hbare : d.IsBare) {steps : List Text}
    (hsteps : (stepsOf m Heuristic.builtIn ns).outcome = .ok steps) (hk : k ∈ ns)
    (hdoc : k.document = d) : k.IsPlain := by
  subst hdoc
  obtain ⟨tag, ht⟩ := Option.isSome_iff_exists.mp (pathName?_of_stepsOf hsteps k hk)
  obtain ⟨name, hname, hx, -⟩ := (hbare.hasBareNames.isName_of_pathName? ht).2 []
  obtain ⟨mk, hmk, hmn⟩ := exists_markup hname
  exact ⟨name, hname, (hbare.hasBareNames.of_name? hmk hmn).1, hx⟩

section Bare

variable (h : IsRootNamed d ⟨d, [i]⟩ name) (hel : d.isElementAt (way ++ [i])) (hw : way ≠ [])
  (hns : ∀ k ∈ Node.along d [] (way ++ [i]), k.IsPlain) (hs : strategy ≠ .never)
  (hend : (⟨d, way ++ [i]⟩ : Node).endsBlank strategy = false)

include hw hns hend in
/-- A path whose last step ends in no blank keeps all its steps. -/
lemma keptSteps_bare : keptSteps (Node.steps strategy d [] (way ++ [i])) =
    Node.steps strategy d [] (way ++ [i]) := by
  obtain ⟨j, way, rfl⟩ := List.exists_cons_of_ne_nil hw
  exact keptSteps_steps (hns _ (by simp [Node.along])).hasXmlName (by simpa using hend)

include hw hns hend in
/-- The whole path. -/
lemma normalize_path_bare : normalize (XPath.path ['/']
    (Node.steps strategy d [] (way ++ [i])).reverse) =
      slashed (Node.steps strategy d [] (way ++ [i])) := by
  have hplain : ∀ s ∈ Node.steps strategy d [] (way ++ [i]), IsPlainStep s :=
    isPlainStep_of_mem_map hns
  rw [path_reverse (steps_ne_nil (by simp)), normalize_plain hplain,
    keptSteps_bare hw hns hend]

include h hel hw hns hs hend

/-- **The search** below the root element of a document without namespaces finds the
whole path if nothing shorter. -/
theorem of_firstThatFinds_bare {found : Option Text}
    (hfound : firstThatFinds (.node ⟨d, [i]⟩) namespaces ⟨d, way ++ [i]⟩
      (candidates (Node.steps strategy d [] (way ++ [i])).reverse) = .ok found) :
    slashed (Node.steps strategy d [] (way ++ [i])) ∈
        candidates (Node.steps strategy d [] (way ++ [i])).reverse ∧
      (Thing.node ⟨d, [i]⟩).SelectsOnly namespaces ⟨d, way ++ [i]⟩
        (slashed (Node.steps strategy d [] (way ++ [i]))) := by
  have hne : Node.along d [] (way ++ [i]) ≠ [] := by simp [along_append]
  have hroot : (⟨d, [i]⟩ : Node).same ⟨d, way ++ [i]⟩ = false := by simp [Node.same, hw]
  have hmem := slashed_mem_candidates hns hne (keptSteps_bare hw hns hend)
  have hplain : ∀ s ∈ Node.steps strategy d [] (way ++ [i]), IsPlainStep s :=
    isPlainStep_of_mem_map hns
  have hother : Node.steps strategy d [] (way ++ [i]) ≠ [name.base] := by
    obtain ⟨j, way, rfl⟩ := List.exists_cons_of_ne_nil hw
    simp [Node.steps, along_append, Node.along]
  obtain ⟨e, hplan, heval⟩ := h.exists_plan_slashed namespaces hplain
    (steps_ne_nil (by simp)) hother
  -- The bindings can be used, since something has been evaluated with them.
  have hcheck : checkNamespaces namespaces = .ok () := by
    cases found with
    | none =>
        exact checkNamespaces_of_findsOnly (isTrim_of_mem_candidates hmem) hplan
          (firstThatFinds_none hfound _ hmem)
    | some r =>
        obtain ⟨front, back, hcs, hr, -⟩ := firstThatFinds_some hfound
        have hrmem : r ∈ candidates (Node.steps strategy d [] (way ++ [i])).reverse := by
          rw [hcs]
          simp
        have hsel := (findsOnly_iff (isTrim_of_mem_candidates hrmem) hr).mp rfl
        obtain ⟨x, hx, -⟩ := h.of_selectsOnly hns hne hrmem hroot hsel
        exact checkNamespaces_of_evaluateElements hx
  have hstart : StartsAt (.document d) ⟨d, [i]⟩ namespaces :=
    ⟨by simp [startNode, h.isRoot], hcheck⟩
  have hfind := finds_of_keepsName h.bare.hasClearTags hstart rfl hs
    (by simp : way ++ [i] ≠ []) hel (fun k hk => (hns k hk).hasXmlName) fun k hk => by
      intro name hname
      obtain ⟨name', hname', hu, -⟩ := hns k hk
      obtain rfl := Option.some.inj (hname.symm.trans hname')
      simp [Name.test, hu, Env.testUri, NodeTest.pfx?]
  refine ⟨hmem, .inr ⟨e, ⟨d, way ++ [i]⟩, hplan, ?_, by simp [Node.same]⟩⟩
  exact (heval hcheck).trans hfind.elements

/-- What the search answers there selects the element alone from the document, and is no
longer than the path. -/
theorem of_answer_bare {found : Option Text}
    (hfound : firstThatFinds (.node ⟨d, [i]⟩) namespaces ⟨d, way ++ [i]⟩
      (candidates (Node.steps strategy d [] (way ++ [i])).reverse) = .ok found)
    (hanswer : r ∈ candidates (Node.steps strategy d [] (way ++ [i])).reverse ∧
        (Thing.node ⟨d, [i]⟩).SelectsOnly namespaces ⟨d, way ++ [i]⟩ r ∧
        (∀ c ∈ candidates (Node.steps strategy d [] (way ++ [i])).reverse, c.length < r.length →
          ¬ (Thing.node ⟨d, [i]⟩).SelectsOnly namespaces ⟨d, way ++ [i]⟩ c) ∨
      r = path ∧ ∀ c ∈ candidates (Node.steps strategy d [] (way ++ [i])).reverse,
        ¬ (Thing.node ⟨d, [i]⟩).SelectsOnly namespaces ⟨d, way ++ [i]⟩ c) :
    r ∈ candidates (Node.steps strategy d [] (way ++ [i])).reverse ∧
      (Thing.node ⟨d, [i]⟩).SelectsOnly namespaces ⟨d, way ++ [i]⟩ r ∧
      evaluateElements r (.document d) namespaces = .ok [⟨d, way ++ [i]⟩] ∧
      r.length ≤ (slashed (Node.steps strategy d [] (way ++ [i]))).length := by
  obtain ⟨hmem, hsel⟩ := of_firstThatFinds_bare h hel hw hns hs hend hfound
  have hroot : (⟨d, [i]⟩ : Node).same ⟨d, way ++ [i]⟩ = false := by simp [Node.same, hw]
  rcases hanswer with ⟨hr, hrsel, hshorter⟩ | ⟨-, hnone⟩
  · obtain ⟨⟨e, b⟩, hx, hsame⟩ := h.of_selectsOnly hns (by simp [along_append]) hr hroot hrsel
    obtain rfl : e = d := document_of_evaluateElements hx (List.mem_singleton_self _)
    obtain rfl : way ++ [i] = b := by
      rw [Node.same, Bool.and_eq_true, beq_iff_eq, beq_iff_eq] at hsame
      exact hsame.2
    exact ⟨hr, hrsel, hx, not_lt.mp fun hlt => hshorter _ hmem hlt hsel⟩
  · exact absurd hsel (hnone _ hmem)

end Bare

/-- **The answer of the search** for the shortest spelling of the path of an element below
the root, if no attribute makes the path: a candidate that selects this element alone
while no shorter one does, or the path itself if no candidate does. In a document
without namespaces, where no root is chosen, positions are written and the last step of
the path ends in no blank, there is such a candidate: the answer selects this element
alone from the document, and is no longer than the path. -/
theorem shortest_eq (hg : g.registry = .new none) (hn : n.isElement)
    (hm : g.making? n o = some m) (hs : m.HasNoShortcut) (hroot : m.node.same m.root = false)
    (h : (g.shortest (.node n) o).outcome = .ok r) :
    ∃ path steps, (g.pathOf (.node n) o).outcome = .ok path ∧
      (g.make (.node n) o).outcome = .ok ⟨path, g.settings o, m.root, some steps⟩ ∧
      let context := firstPresent [(g.settings o).root, .node m.root]
      let namespaces := prefixes (g.settings o) context
      (r ∈ candidates steps ∧ context.SelectsOnly namespaces n r ∧
          (∀ c ∈ candidates steps, c.length < r.length →
            ¬ context.SelectsOnly namespaces n c) ∨
        r = path ∧ ∀ c ∈ candidates steps, ¬ context.SelectsOnly namespaces n c) ∧
      (n.document.IsBare → (g.settings o).root = .nothing → (g.settings o).strategy ≠ .never →
        m.endsBlank = false →
        r ∈ candidates steps ∧ context.SelectsOnly namespaces n r ∧
          evaluateElements r (.document n.document) namespaces = .ok [n] ∧
          r.length ≤ path.length) := by
  obtain ⟨steps, hsteps, ⟨found, hfound⟩, hanswer⟩ := of_shortest hg hn hm hs hroot h
  have hmake := outcome_make hg hn hm hs hroot
  rw [hsteps, ok_bind] at hmake
  rw [(of_making? hm).2] at hmake hfound hanswer
  have hpath : (g.pathOf (.node n) o).outcome = .ok (normalize (XPath.path ['/'] steps)) := by
    rw [pathOf, Traced.outcome_bind, hmake]
    rfl
  refine ⟨_, steps, hpath, hmake, hanswer, fun hbare hopen hstrategy hend => ?_⟩
  have hcontext : firstPresent [(g.settings o).root, .node m.root] = .node m.root := by
    rw [hopen]
    rfl
  rw [hcontext] at hfound hanswer ⊢
  obtain ⟨d, b⟩ := n
  obtain ⟨i, hi, hiel, hu⟩ := hbare.whole.exists_root
  have hel : d.isElementAt b := Document.isElement_iff.mp hn
  obtain ⟨way, rfl⟩ := Document.exists_way_of_isElementAt hu hel
  have hdroot : d.root? = some ⟨d, [i]⟩ := by simp [Document.root?, Document.rootAddress?, hi]
  have hunscoped := rootElement?_of_isUnscoped (n := ⟨d, way ++ [i]⟩) (.inl hopen) hdroot
    (Document.isElement_iff.mpr hiel)
  obtain rfl := Option.some.inj
    (hm.symm.trans (making?_eq (r := ⟨d, [i]⟩) (by simp) rfl hn hunscoped))
  have hw : way ≠ [] := by
    rintro rfl
    simp [Node.same] at hroot
  have hplain : ∀ k ∈ Node.along d [] (way ++ [i]), k.IsPlain := by
    intro k hk
    have hdoc := (length_address_of_mem_along hk).1
    rw [along_append] at hk
    exact isPlain_of_stepsOf hbare hsteps hk hdoc
  obtain rfl : (Node.steps (g.settings o).strategy d [] (way ++ [i])).reverse = steps := by
    refine Except.ok.inj (Eq.trans ?_ hsteps)
    rw [stepsOf_eq _ fun k hk => (hplain k (by rwa [along_append])).hasXmlName, Node.steps,
      along_append]
  obtain ⟨name, hname, -, hx⟩ := hplain ⟨d, [i]⟩ (by simp [along_append])
  have hend' : (⟨d, way ++ [i]⟩ : Node).endsBlank (g.settings o).strategy = false := by
    rw [Making.endsBlank_eq ⟨d, [i]⟩ way, if_neg hw] at hend
    exact hend
  have hbareAnswer := of_answer_bare ⟨hbare, hdroot, hname, hx⟩ hel hw hplain hstrategy hend'
    hfound hanswer
  rwa [normalize_path_bare hw hplain hend']

/-! Two elements of one name below different ones, and the second of two children whose
names differ by a blank at the end. -/

/-- Two elements of one name, one of them below another element. -/
def nestedTwins : Document where
  key := 0
  content := [.element { base := ['r'] } [] []
    [.element { base := ['a'] } [] [] [.element { base := ['b'] } [] [] []],
      .element { base := ['b'] } [] [] []]]

/-- The shortest spelling of the path of the first of the two names the element around it. -/
theorem shortest_nestedTwins :
    (({} : Generator).shortest (.node ⟨nestedTwins, [0, 0, 0]⟩) none).outcome =
        .ok ['/', '/', 'a', '/', 'b'] ∧
      evaluateElements ['/', '/', 'a', '/', 'b'] (.document nestedTwins) [] =
        .ok [⟨nestedTwins, [0, 0, 0]⟩] := by
  have hcandidates : candidates [['r'], ['a'], ['b']] = [['/', '/', 'b'],
      ['/', '/', 'a', '/', 'b'], ['/', 'r', '/', 'a', '/', 'b'],
      ['/', '/', 'r', '/', 'a', '/', 'b']] := by
    have hforms : dedup (((spellings [['r'], ['a'], ['b']]).map normalize).filter
        fun s => !s.isEmpty) = [['/', 'r', '/', 'a', '/', 'b'], ['/', '/', 'r', '/', 'a', '/', 'b'],
          ['/', '/', 'a', '/', 'b'], ['/', '/', 'b']] := rfl
    rw [candidates, if_neg (by decide)]
    simp only [hforms]
    simp [List.mergeSort, List.MergeSort.Internal.splitInTwo]
  have hshortest : (({} : Generator).shortest (.node ⟨nestedTwins, [0, 0, 0]⟩) none).outcome =
      .ok ['/', '/', 'a', '/', 'b'] :=
    shortest_of_candidates (m := ⟨⟨nestedTwins, [0, 0, 0]⟩, ⟨nestedTwins, [0]⟩,
        ({} : Generator).settings none,
        [⟨nestedTwins, [0, 0, 0]⟩, ⟨nestedTwins, [0, 0]⟩, ⟨nestedTwins, [0]⟩]⟩)
      rfl rfl rfl ⟨rfl, rfl⟩ rfl (some ['/', '/', 'a', '/', 'b']) rfl hcandidates rfl
  obtain ⟨path, steps, -, -, -, hselects⟩ := shortest_eq (g := {}) (o := none) rfl rfl rfl
    ⟨rfl, rfl⟩ rfl hshortest
  obtain ⟨-, -, hone, -⟩ := hselects (by decide) rfl (by decide) rfl
  exact ⟨hshortest, hone⟩

/-- No spelling of the path of the child whose name ends in a blank selects it: they all
lose the blank. -/
theorem shortest_blankTwins :
    blankTwins.IsBare ∧
      (∃ m, ({} : Generator).making? ⟨blankTwins, [1, 0]⟩ none = some m ∧ m.HasNoShortcut ∧
        m.node.same m.root = false) ∧
      (({} : Generator).shortest (.node ⟨blankTwins, [1, 0]⟩) none).outcome =
        .ok ['/', 'r', '/', 'a'] ∧
      evaluateElements ['/', 'r', '/', 'a'] (.document blankTwins) [] =
        .ok [⟨blankTwins, [0, 0]⟩] := by
  have hcandidates : candidates [['r'], ['a', '\u1680']] =
      [['/', '/', 'a'], ['/', 'r', '/', 'a'], ['/', '/', 'r', '/', 'a']] := by
    have hforms : dedup (((spellings [['r'], ['a', '\u1680']]).map normalize).filter
        fun s => !s.isEmpty) =
          [['/', 'r', '/', 'a'], ['/', '/', 'r', '/', 'a'], ['/', '/', 'a']] := rfl
    rw [candidates, if_neg (by decide)]
    simp only [hforms]
    simp [List.mergeSort, List.MergeSort.Internal.splitInTwo]
  have hshortest := shortest_of_candidates (g := {}) (n := ⟨blankTwins, [1, 0]⟩) (o := none)
    (m := ⟨⟨blankTwins, [1, 0]⟩, ⟨blankTwins, [0]⟩, ({} : Generator).settings none,
      [⟨blankTwins, [1, 0]⟩, ⟨blankTwins, [0]⟩]⟩)
    rfl rfl rfl ⟨rfl, rfl⟩ rfl none rfl hcandidates rfl
  exact ⟨by decide, ⟨_, rfl, ⟨rfl, rfl⟩, rfl⟩, hshortest, rfl⟩

end Generator

end Locator
