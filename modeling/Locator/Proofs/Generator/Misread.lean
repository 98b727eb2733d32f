/-
Names that paths misread

A path writes the names of elements in full only where the prefixes of the root
element allow it: an element of a default namespace is written bare, and a prefix
that is declared again below the root is read as the root declares it.

* `Node.KeepsName`: the name of an element is read as what it is;
* `Node.readsTo`, `Node.Reaches`: where the steps of elements lead, their names being
  read under given prefixes, and `Node.reaches_self_iff`: to the element at the end
  of a chain **just where all names are kept**;
* `selects_chain_reaches`, `eval_chain_unbound`: what a chain of such steps selects,
  and that it fails where a prefix is unbound;
* `Generator.resolve_pathOf_misread`: what the path of an element finds instead of it.
-/
import Locator.Proofs.Generator.RoundTrip

namespace Locator

open XPath

variable {env : Env} {strategy : IndexStrategy} {d : Document} {n root : Node}
  {ns : List Node} {i : ℕ} {way : List ℕ} {b : Address} {namespaces : List (Text × Text)}

namespace Node

/-! ### Steps as they are read -/

/-- The name of an element in a path is read as what it is. -/
def KeepsName (env : Env) (n : Node) : Prop :=
  ∀ name, n.name? = some name → env.testUri name.test = .ok name.uri

/-- Some name is read where the path has that of the element. -/
def IsReadable (env : Env) (n : Node) : Prop :=
  ∃ name uri, n.name? = some name ∧ env.testUri name.test = .ok uri

/-- Does the step of an element, read as it is written, lead to a child at an
address? -/
def readsTo (env : Env) (strategy : IndexStrategy) (n : Node) (b : Address) : Prop :=
  ∃ name uri, n.name? = some name ∧ env.testUri name.test = .ok uri ∧
    passesAt env.document name.test uri b ∧
    (Generator.needsIndex n strategy → positionAt env.document name.test uri b = n.index)

/-- Do the steps of elements, the innermost first, lead from the document to an
address? -/
def Reaches (env : Env) (strategy : IndexStrategy) : List Node → Address → Prop
  | [], b => b = []
  | n :: ns, b => ∃ j c, b = j :: c ∧ Reaches env strategy ns c ∧ n.readsTo env strategy b

lemma isElementAt_of_readsTo (h : n.readsTo env strategy b) : env.document.isElementAt b := by
  obtain ⟨name, uri, -, -, hp, -⟩ := h
  exact isElementAt_of_passesAt hp

/-- Steps lead to elements, as many levels down as they are. -/
lemma Reaches.length_eq (h : Reaches env strategy ns b) : b.length = ns.length := by
  induction ns generalizing b with
  | nil => simp [show b = [] from h]
  | cons n ns ih =>
      obtain ⟨j, c, rfl, hc, -⟩ := h
      simp [ih hc]

lemma Reaches.isElementAt (h : Reaches env strategy ns b) (hns : ns ≠ []) :
    env.document.isElementAt b := by
  obtain ⟨n, ns, rfl⟩ := List.exists_cons_of_ne_nil hns
  obtain ⟨j, c, rfl, -, hb⟩ := h
  exact isElementAt_of_readsTo hb

lemma Reaches.isReadable (h : Reaches env strategy ns b) : ∀ k ∈ ns, k.IsReadable env := by
  induction ns generalizing b with
  | nil => simp
  | cons n ns ih =>
      obtain ⟨j, c, rfl, hc, name, uri, hname, hu, -⟩ := h
      rw [List.forall_mem_cons]
      exact ⟨⟨name, uri, hname, hu⟩, ih hc⟩

/-- The step of an element leads to it just where its name is kept. -/
lemma readsTo_self_iff (strategy : IndexStrategy) (namespaces : List (Text × Text))
    (hd : d.HasClearTags) (hn : (⟨d, i :: way⟩ : Node).isElement) :
    (⟨d, i :: way⟩ : Node).readsTo ⟨d, namespaces⟩ strategy (i :: way) ↔
      (⟨d, i :: way⟩ : Node).KeepsName ⟨d, namespaces⟩ := by
  obtain ⟨name, hname⟩ := Option.isSome_iff_exists.mp hn
  constructor
  · rintro ⟨name', uri, hname', hu, hp, -⟩ name'' hname''
    obtain rfl := Option.some.inj (hname''.symm.trans hname')
    obtain ⟨m, hm, hpass⟩ := passesAt_iff.mp hp
    obtain ⟨m', hm', hmn⟩ := exists_markup hname'
    obtain rfl := Option.some.inj (hm.symm.trans hm')
    rw [Name.test, Markup.passes_name, hmn, Option.any_some, Bool.and_eq_true, beq_iff_eq,
      beq_iff_eq] at hpass
    rw [hu, hpass.2]
  · intro hk
    refine ⟨name, name.uri, hname, hk name hname, passesAt_self hd hname, fun _ => ?_⟩
    rw [index_eq_positionAt hd hname]

/-- The step of an element whose name is kept leads to no other child. -/
lemma eq_of_readsTo (hd : d.HasClearTags) (hs : strategy ≠ .never)
    (hk : (⟨d, i :: way⟩ : Node).KeepsName ⟨d, namespaces⟩) {j : ℕ}
    (h : (⟨d, i :: way⟩ : Node).readsTo ⟨d, namespaces⟩ strategy (j :: way)) : j = i := by
  obtain ⟨name, uri, hname, hu, hp, hpos⟩ := h
  obtain rfl : name.uri = uri := Except.ok.inj ((hk name hname).symm.trans hu)
  refine eq_of_leadsTo hd hname hs ?_
  simp only [leadsTo, Bool.and_eq_true, Bool.or_eq_true, Bool.not_eq_true', beq_iff_eq]
  refine ⟨hp, ?_⟩
  cases hx : Generator.needsIndex (⟨d, i :: way⟩ : Node) strategy with
  | false => exact .inl rfl
  | true => exact .inr (hpos hx)

/-! ### Chains of steps as they are read -/

lemma of_mem_along {a : Address} {k : Node} (h : k ∈ Node.along d a way) :
    ∃ i b, k = ⟨d, i :: b⟩ := by
  induction way with
  | nil => simp [Node.along] at h
  | cons i way ih =>
      rcases List.mem_cons.mp h with rfl | h
      · exact ⟨i, way ++ a, rfl⟩
      · exact ih h

/-- **The steps along a way** lead to its end just where all names are kept. -/
theorem reaches_self_iff (strategy : IndexStrategy) (namespaces : List (Text × Text))
    (hd : d.HasClearTags)
    (hel : ∀ k ∈ Node.along d [] way, k.isElement) :
    Reaches ⟨d, namespaces⟩ strategy (Node.along d [] way) way ↔
      ∀ k ∈ Node.along d [] way, k.KeepsName ⟨d, namespaces⟩ := by
  induction way with
  | nil => simp [Node.along, Reaches]
  | cons i way ih =>
      rw [Node.along, List.append_nil] at hel ⊢
      have hself := readsTo_self_iff strategy namespaces hd (hel _ List.mem_cons_self)
      rw [List.forall_mem_cons, ← ih fun k hk => hel k (List.mem_cons_of_mem _ hk), ← hself]
      constructor
      · rintro ⟨j, c, hjc, hc, hb⟩
        obtain ⟨rfl, rfl⟩ := List.cons.inj hjc
        exact ⟨hb, hc⟩
      · rintro ⟨hb, hc⟩
        exact ⟨i, way, rfl, hc, hb⟩

/-- Where all names are kept they lead nowhere else. -/
theorem Reaches.eq_way (hd : d.HasClearTags) (hs : strategy ≠ .never)
    (hk : ∀ k ∈ Node.along d [] way, k.KeepsName ⟨d, namespaces⟩)
    (h : Reaches ⟨d, namespaces⟩ strategy (Node.along d [] way) b) : b = way := by
  induction way generalizing b with
  | nil => exact h
  | cons i way ih =>
      rw [Node.along, List.append_nil] at hk h
      obtain ⟨j, c, rfl, hc, hb⟩ := h
      obtain rfl := ih (fun k hk' => hk k (List.mem_cons_of_mem _ hk')) hc
      rw [eq_of_readsTo hd hs (hk _ List.mem_cons_self) hb]

/-- The step of the root element leads to no other element, whatever its name is read
as. -/
lemma reaches_root_iff (hd : d.HasClearTags) (hel : (⟨d, [i]⟩ : Node).isElement) :
    Reaches ⟨d, namespaces⟩ strategy [⟨d, [i]⟩] b ↔
      b = [i] ∧ (⟨d, [i]⟩ : Node).KeepsName ⟨d, namespaces⟩ := by
  have hself := readsTo_self_iff strategy namespaces hd hel
  constructor
  · rintro ⟨j, c, rfl, rfl, hb⟩
    obtain ⟨k, -, -, hu⟩ := hd.whole.exists_root
    obtain rfl : j = i :=
      (hu j (isElementAt_of_readsTo hb)).trans (hu i (Document.isElement_iff.mp hel)).symm
    exact ⟨rfl, hself.mp hb⟩
  · rintro ⟨rfl, hk⟩
    exact ⟨i, [], rfl, rfl, hself.mpr hk⟩

end Node

/-- What a chain of steps selects if its names can be read. -/
theorem selects_chain_reaches (strategy : IndexStrategy) (f : Frame)
    (hns : ∀ n ∈ ns, n.IsReadable env ∧ n.index ≤ Number.exactLimit) :
    Selects env (Node.chainExpr strategy .root ns) f (Node.Reaches env strategy ns) := by
  induction ns with
  | nil => exact selects_root f
  | cons n ns ih =>
      obtain ⟨⟨name, uri, hn, hu⟩, hi⟩ := hns n (by simp)
      refine (Selects.stepExpr_of_testUri (ih fun n hn => hns n (by simp [hn])) hn hu hi).congr
        fun b => ?_
      constructor
      · rintro ⟨c, hc, j, rfl, hb⟩
        simp only [Bool.and_eq_true, Bool.or_eq_true, Bool.not_eq_true', beq_iff_eq] at hb
        refine ⟨j, c, rfl, hc, name, uri, hn, hu, hb.1, fun hx => ?_⟩
        exact hb.2.resolve_left (by simp [hx])
      · rintro ⟨j, c, rfl, hc, name', uri', hn', hu', hp, hx⟩
        obtain rfl := Option.some.inj (hn.symm.trans hn')
        obtain rfl := Except.ok.inj (hu.symm.trans hu')
        refine ⟨c, hc, j, rfl, ?_⟩
        simp only [Bool.and_eq_true, Bool.or_eq_true, Bool.not_eq_true', beq_iff_eq]
        refine ⟨hp, ?_⟩
        cases hneed : Generator.needsIndex n strategy with
        | false => exact .inl rfl
        | true => exact .inr (hx hneed)

/-- A chain of steps fails where a prefix is unbound. -/
theorem eval_chain_unbound (strategy : IndexStrategy) (f : Frame)
    (hns : ∀ n ∈ ns, n.isElement ∧ n.index ≤ Number.exactLimit)
    (hun : ∃ n ∈ ns, ¬ n.IsReadable env) :
    ∃ e, eval env (Node.chainExpr strategy .root ns) f = .error e := by
  induction ns with
  | nil => simp at hun
  | cons n ns ih =>
      have hns' : ∀ k ∈ ns, k.isElement ∧ k.index ≤ Number.exactLimit :=
        fun k hk => hns k (by simp [hk])
      rw [Node.chainExpr, Node.stepExpr, eval]
      by_cases hrest : ∃ k ∈ ns, ¬ k.IsReadable env
      · obtain ⟨e, he⟩ := ih hns' hrest
        exact ⟨e, by rw [he]; rfl⟩
      · push Not at hrest
        obtain ⟨ps, hps, -⟩ := selects_chain_reaches strategy f
          fun k hk => ⟨hrest k hk, (hns' k hk).2⟩
        obtain ⟨name, hname⟩ := Option.isSome_iff_exists.mp (hns n (by simp)).1
        have hn : ¬ n.IsReadable env := by
          obtain ⟨k, hk, hbad⟩ := hun
          rcases List.mem_cons.mp hk with rfl | hk
          · exact hbad
          · exact absurd (hrest k hk) hbad
        cases hu : env.testUri name.test with
        | ok uri => exact absurd ⟨name, uri, hname, hu⟩ hn
        | error e =>
            refine ⟨e, ?_⟩
            rw [hps, hname]
            simp [Result.toNodes, hu]

/-! ### What is found -/

/-- An expression that has no result finds nothing. -/
lemma firstElement_of_error {c : Context} {x : Node} {s : Text} {e : Expr} {why : EvalError}
    (hc : StartsAt c x namespaces) (hx : Text.isXmlText s) (hr : Expr.read? s = some e)
    (h : eval ⟨x.document, namespaces⟩ e { place := .node x.address } = .error why) :
    Generator.firstElement s c namespaces = .ok none := by
  have he : evaluate s c namespaces = .error (.path why) := by
    simp [evaluate, hc.start, hc.bound, checkText, hx, hr, selectFrom, Env.select, h,
      Except.mapError]
  rw [Generator.firstElement, he]
  rfl

/-- **Steps from the document** find an element where they lead, and nothing where
they lead nowhere. -/
theorem exists_firstElement_steps (strategy : IndexStrategy) (hd : d.HasClearTags) {c : Context} {x : Node}
    (hc : StartsAt c x namespaces) (hx : x.document = d) (hw : way ≠ [])
    (hns : ∀ k ∈ Node.along d [] way, k.HasXmlName) :
    ∃ found, Generator.firstElement (slashed (Node.steps strategy d [] way)) c namespaces =
        .ok found ∧
      (∀ y, found = some y → y.document = d ∧
        Node.Reaches ⟨d, namespaces⟩ strategy (Node.along d [] way) y.address) ∧
      (found = none → ∀ b, ¬ Node.Reaches ⟨d, namespaces⟩ strategy (Node.along d [] way) b) := by
  classical
  subst hx
  have hread : Expr.read? (slashed (Node.steps strategy x.document [] way)) =
      some (Node.chainExpr strategy .root (Node.along x.document [] way)) :=
    read?_slashed (stepsRead_chain hns .root) (steps_ne_nil hw)
  have hxml := isXmlText_slashed (isXmlText_steps strategy hns)
  have hne : Node.along x.document [] way ≠ [] := by
    obtain ⟨i, way, rfl⟩ := List.exists_cons_of_ne_nil hw
    simp [Node.along]
  have hchain : ∀ k ∈ Node.along x.document [] way,
      k.isElement ∧ k.index ≤ Number.exactLimit := by
    intro k hk
    obtain ⟨name, hname, -⟩ := hns k hk
    obtain ⟨i, b, rfl⟩ := Node.of_mem_along hk
    exact ⟨by simp [Node.isElement, hname], index_le hd hname⟩
  by_cases hun : ∃ k ∈ Node.along x.document [] way, ¬ k.IsReadable ⟨x.document, namespaces⟩
  · obtain ⟨e, he⟩ := eval_chain_unbound strategy { place := .node x.address }
      hchain hun
    refine ⟨none, firstElement_of_error hc hxml hread he, by simp, fun _ b hb => ?_⟩
    obtain ⟨k, hk, hbad⟩ := hun
    exact hbad (hb.isReadable k hk)
  · push Not at hun
    have hsel := selects_chain_reaches strategy { place := .node x.address }
      fun k hk => ⟨hun k hk, (hchain k hk).2⟩
    refine ⟨_, firstElement_eq hd.whole hc hxml hread hsel (fun b hb => hb.isElementAt hne)
      (H := fun b => decide (Node.Reaches ⟨x.document, namespaces⟩ strategy
        (Node.along x.document [] way) b)) (by simp), fun y hy => ?_, fun hnone b hb => ?_⟩
    · have hmem := (Document.mem_elements hd.whole).mp (List.mem_of_find?_eq_some hy)
      exact ⟨hmem.1, by simpa using List.find?_some hy⟩
    · have hel := hb.isElementAt hne
      have hmem : (⟨x.document, b⟩ : Node) ∈ x.document.elements :=
        (Document.mem_elements hd.whole).mpr ⟨rfl, hel⟩
      exact absurd hb (by simpa using List.find?_eq_none.mp hnone _ hmem)

/-- **Steps from the document** find the element at their end alone, if the names around
it are read as what they are. -/
theorem finds_of_keepsName (hd : d.HasClearTags) {c : Context} {x : Node}
    (hc : StartsAt c x namespaces) (hx : x.document = d) (hs : strategy ≠ .never) (hw : way ≠ [])
    (hel : d.isElementAt way) (hns : ∀ k ∈ Node.along d [] way, k.HasXmlName)
    (hk : ∀ k ∈ Node.along d [] way, k.KeepsName ⟨d, namespaces⟩) :
    Finds (slashed (Node.steps strategy d [] way)) c namespaces ⟨d, way⟩ := by
  subst hx
  have hread : Expr.read? (slashed (Node.steps strategy x.document [] way)) =
      some (Node.chainExpr strategy .root (Node.along x.document [] way)) :=
    read?_slashed (stepsRead_chain hns .root) (steps_ne_nil hw)
  have hchain : ∀ k ∈ Node.along x.document [] way,
      k.IsReadable ⟨x.document, namespaces⟩ ∧ k.index ≤ Number.exactLimit := by
    intro k hk'
    obtain ⟨name, hname, -⟩ := hns k hk'
    obtain ⟨i, b, rfl⟩ := Node.of_mem_along hk'
    exact ⟨⟨name, name.uri, hname, hk _ hk' name hname⟩, index_le hd hname⟩
  have helement : ∀ k ∈ Node.along x.document [] way, k.isElement := by
    intro k hk'
    obtain ⟨name, hname, -⟩ := hns k hk'
    simp [Node.isElement, hname]
  refine finds_of_selects hd.whole hc (isXmlText_slashed (isXmlText_steps strategy hns)) hread
    (selects_chain_reaches strategy { place := .node x.address } hchain) rfl
    (Document.isElement_iff.mpr hel) fun b => ?_
  constructor
  · intro hb
    exact hb.eq_way hd hs hk
  · rintro rfl
    exact (Node.reaches_self_iff strategy namespaces hd helement).mpr hk

namespace Generator

variable {g : Generator} {o o' : Option Options} {m : Making}

/-- **What the path of an element finds** in an XML document, if no attribute makes it
and its last step ends in no blank: the element just where all names around it are read
as what they are, and another one just where its steps, as they are read, lead to
another one. -/
theorem resolve_pathOf_misread (hd : d.IsXml) (hn : n ∈ d.elements) (hroot : d.root? = some root)
    (hg : g.registry = .new none) (hopen : (g.settings o).root = .nothing)
    (hopen' : (g.settings o').root = .nothing) (hns : (g.settings o').namespaces.getD [] = [])
    (hs : (g.settings o).strategy ≠ .never) (hm : g.making? n o = some m)
    (hshort : m.HasNoShortcut) (hend : m.endsBlank = false) :
    ∃ path found, (g.pathOf (.node n) o).outcome = .ok path ∧
      g.resolve path (.document d) o' = .ok found ∧
      (found = some n ↔ ∀ k ∈ n.ancestors, k.KeepsName ⟨d, root.namespaces⟩) ∧
      ((found = some n ∨ found = none) ↔ ¬ ∃ b ≠ n.address,
        Node.Reaches ⟨d, root.namespaces⟩ (g.settings o).strategy n.ancestors b) := by
  obtain ⟨rfl, hel⟩ := (Document.mem_elements hd.whole).mp hn
  obtain ⟨i, hi, hiel, hu⟩ := hd.whole.exists_root
  obtain ⟨way, hway⟩ := Document.exists_way_of_isElementAt hu hel
  obtain ⟨d, b⟩ := n
  obtain rfl : b = way ++ [i] := hway
  obtain rfl : root = ⟨d, [i]⟩ := by
    simpa [Document.root?, Document.rootAddress?, hi, eq_comm] using hroot
  have htags : d.HasClearTags := hd.hasClearTags
  have hrel : (⟨d, [i]⟩ : Node).isElement := Document.isElement_iff.mpr hiel
  have hnel : (⟨d, way ++ [i]⟩ : Node).isElement := Document.isElement_iff.mpr hel
  have hchain : (⟨d, way ++ [i]⟩ : Node).ancestors = Node.along d [] (way ++ [i]) := by
    rw [ancestors_append (by simp) hel, along_append]
    rfl
  have hnames : ∀ k ∈ Node.along d [] (way ++ [i]), k.HasXmlName := by
    intro k hk
    obtain ⟨hdoc, hkel⟩ := of_mem_ancestors hnel (hchain ▸ hk)
    obtain ⟨name, hname⟩ := Option.isSome_iff_exists.mp hkel
    obtain ⟨mk, hmk, hname'⟩ := exists_markup hname
    rw [hdoc] at hmk
    exact ⟨name, hname, hd.isXml_of_name? hmk hname'⟩
  have hnames' : ∀ k ∈ Node.along d [i] way ++ [⟨d, [i]⟩], k.HasXmlName := by
    rwa [along_append] at hnames
  have hunscoped := rootElement?_of_isUnscoped (.inl hopen) hroot hrel
  have hpath := pathOf_eq (r := ⟨d, [i]⟩) hg (by simp) rfl hnel hunscoped hm hshort hnames'
  have hcut : (⟨d, way ++ [i]⟩ : Node).endsBlank
      (if way = [] then .never else (g.settings o).strategy) = false := by
    obtain rfl := Option.some.inj (hm.symm.trans (making?_eq (r := ⟨d, [i]⟩) (by simp) rfl hnel
      hunscoped))
    rw [← hend]
    exact (Making.endsBlank_eq ⟨d, [i]⟩ way _ _).symm
  obtain ⟨strategy, hstrategy, hsame, hkept⟩ := keptSteps_pathSteps hnames hcut
  have hbinds : (⟨d, [i]⟩ : Node).document.BindsXml := hd.bindsXml
  have hstart : StartsAt (.document d) ⟨d, [i]⟩ (⟨d, [i]⟩ : Node).namespaces :=
    ⟨by simp [startNode, hroot], hbinds.checkNamespaces⟩
  have hsome' : keptSteps ((⟨d, [i]⟩ : Node).pathSteps (g.settings o).strategy way) ≠ [] := by
    rw [hkept]
    exact steps_ne_nil (by simp)
  have hopen'' : firstPresent [(g.settings o').root, .document d, g.document] = .document d := by
    rw [hopen']
    rfl
  have hresolve := resolve_document hnames' hsome' hopen''
  rw [hkept, prefixes_document hns hroot] at hresolve
  obtain ⟨found, hfound, hsome, hnone⟩ := exists_firstElement_steps strategy htags
    hstart rfl (by simp : way ++ [i] ≠ []) hnames
  -- The path of the root element has no position, whatever the strategy is.
  have hreach : ∀ b, Node.Reaches ⟨d, (⟨d, [i]⟩ : Node).namespaces⟩ strategy
      (Node.along d [] (way ++ [i])) b ↔ Node.Reaches ⟨d, (⟨d, [i]⟩ : Node).namespaces⟩
        (g.settings o).strategy (Node.along d [] (way ++ [i])) b := by
    intro b
    cases way with
    | nil => exact (Node.reaches_root_iff htags hrel).trans (Node.reaches_root_iff htags hrel).symm
    | cons j way => rw [hsame (by simp)]
  simp only [hreach] at hsome hnone
  have hself := Node.reaches_self_iff (g.settings o).strategy (⟨d, [i]⟩ : Node).namespaces htags
    fun k hk => (of_mem_ancestors hnel (hchain ▸ hk)).2
  have hfoundSelf : ∀ y, found = some y → y.address = way ++ [i] → y = ⟨d, way ++ [i]⟩ := by
    rintro ⟨e, b⟩ hy rfl
    obtain rfl : e = d := (hsome _ hy).1
    rfl
  refine ⟨_, found, hpath, by rw [hkept]; exact hresolve.trans hfound, ?_, ?_⟩
  · rw [hchain, ← hself]
    constructor
    · intro h
      exact (hsome _ h).2
    · intro h
      cases hf : found with
      | none => exact absurd h (hnone hf _)
      | some y =>
          rw [hfoundSelf y hf ((hsome y hf).2.eq_way htags hs (hself.mp h))]
  · rw [hchain]
    constructor
    · rintro (h | h) ⟨b, hne, hb⟩
      · exact hne (hb.eq_way htags hs (hself.mp (hsome _ h).2))
      · exact hnone h b hb
    · intro h
      cases hf : found with
      | none => exact .inr rfl
      | some y =>
          refine .inl (congrArg some (hfoundSelf y hf ?_))
          by_contra hne
          exact h ⟨y.address, hne, (hsome y hf).2⟩

/-- A prefix is declared again below the root. -/
def shadowedPrefix : Document where
  key := 0
  content := [.element { base := ['r'] } [⟨some ['p'], ['u']⟩] []
    [.element ⟨some ['p'], some ['v'], ['a']⟩ [⟨some ['p'], ['v']⟩] [] []]]

/-- The first of two children of one local name is in a default namespace. -/
def defaultTwins : Document where
  key := 0
  content := [.element { base := ['r'] } [] []
    [.element ⟨none, some ['u'], ['a']⟩ [⟨none, ['u']⟩] [] [], .element { base := ['a'] } [] [] []]]

/-- The path of the element whose prefix is declared again finds nothing. -/
theorem resolve_shadowedPrefix :
    ∃ path, (({} : Generator).pathOf (.node ⟨shadowedPrefix, [0, 0]⟩) none).outcome = .ok path ∧
      ({} : Generator).resolve path (.document shadowedPrefix) none = .ok none := by
  have hxml : shadowedPrefix.IsXml := by decide
  have hopen : (({} : Generator).settings none).root = .nothing := rfl
  obtain ⟨path, found, hpath, hfound, hself, hother⟩ := resolve_pathOf_misread
    (d := shadowedPrefix) (n := ⟨shadowedPrefix, [0, 0]⟩) (g := {}) (o := none) hxml
    (List.mem_of_getElem? (i := 1) rfl) rfl rfl hopen hopen rfl (by decide) rfl ⟨rfl, rfl⟩ rfl
  have hmisread : found ≠ some ⟨shadowedPrefix, [0, 0]⟩ := by
    intro h
    have := hself.mp h ⟨shadowedPrefix, [0, 0]⟩ (by simp [Node.ancestors]) _ rfl
    exact absurd this (by decide)
  have hnone : ¬ ∃ b ≠ [0, 0], Node.Reaches ⟨shadowedPrefix, [(['p'], ['u'])]⟩ .auto
      [⟨shadowedPrefix, [0, 0]⟩, ⟨shadowedPrefix, [0]⟩] b := by
    rintro ⟨b, hne, hb⟩
    have hlen := hb.length_eq
    have hmem : (⟨shadowedPrefix, b⟩ : Node) ∈ shadowedPrefix.elements :=
      (Document.mem_elements hxml.whole).mpr ⟨rfl, hb.isElementAt (by simp)⟩
    have hall : shadowedPrefix.elements = [⟨shadowedPrefix, [0]⟩, ⟨shadowedPrefix, [0, 0]⟩] := rfl
    rw [hall] at hmem
    simp only [List.mem_cons, Node.mk.injEq, true_and, List.not_mem_nil, or_false] at hmem
    rcases hmem with rfl | rfl
    · simp at hlen
    · exact hne rfl
  obtain rfl := (hother.mpr hnone).resolve_left hmisread
  exact ⟨path, hpath, hfound⟩

/-- The path of the child in the default namespace finds the other child. -/
theorem resolve_defaultTwins :
    defaultTwins.IsXml ∧
      (∃ m, ({} : Generator).making? ⟨defaultTwins, [0, 0]⟩ none = some m ∧ m.HasNoShortcut ∧
        m.endsBlank = false) ∧
      (({} : Generator).pathOf (.node ⟨defaultTwins, [0, 0]⟩) none).outcome =
        .ok ['/', 'r', '/', 'a'] ∧
      ({} : Generator).resolve ['/', 'r', '/', 'a'] (.document defaultTwins) none =
        .ok (some ⟨defaultTwins, [1, 0]⟩) :=
  ⟨by decide, ⟨_, rfl, ⟨rfl, rfl⟩, rfl⟩, rfl, rfl⟩

end Generator

end Locator
