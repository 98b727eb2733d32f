/-
Looking from the root element and looking from the document

* `Node.IsRootOf`: a root element in no namespace, and `selects_toRoot`, the step to it;
* `evaluate_point`: **behind its name** a text selects what the rest selects behind a point;
* `firstElement_tag`, `firstElement_unbound`: the name of the root element by itself finds it
  exactly where prefixes can be bound;
* `Generator.resolve_root_iff`: **looking from the root element**, where its name at the start
  of a path is taken for itself, comes to what looking from the document comes to, but for a
  root element that paths cannot name, and for its name alone where a prefix cannot be bound.
-/
import Locator.Proofs.Generator.Failing
import Locator.Proofs.Generator.Shortcut
import Locator.Proofs.Generator.Shortest
import Locator.Proofs.XPath.Start

namespace Locator

open XPath

variable {d : Document} {r : Node} {name : Name} {g : Generator} {o : Option Options}
  {x : Text} {namespaces : List (Text × Text)}

/-! ### The root element -/

/-- The root element of a document with one such element, and its name, which is in no
namespace. -/
structure Node.IsRootOf (r : Node) (d : Document) (name : Name) : Prop where
  isRoot : d.root? = some r
  whole : d.IsWhole
  named : r.name? = some name
  uri : name.uri = none

namespace Node.IsRootOf

variable (h : r.IsRootOf d name)
include h

lemma exists_address : ∃ i, r = ⟨d, [i]⟩ ∧ ∀ j, d.isElementAt [j] → j = i := by
  obtain ⟨i, hi, -, hu⟩ := h.whole.exists_root
  refine ⟨i, ?_, hu⟩
  simpa [Document.root?, Document.rootAddress?, hi, eq_comm] using h.isRoot

lemma document_eq : r.document = d := by
  obtain ⟨i, rfl, -⟩ := h.exists_address
  rfl

lemma isElement : r.isElement := by
  simp [Node.isElement, h.named]

/-- A path says the local part of the name, if it is a name. -/
lemma stepName (hn : Text.IsName name.base) : Heuristic.stepName r = .ok name.base := by
  have hbase : Node.isPathName name.base = true := Text.isPathName_iff.mpr hn
  rw [Heuristic.stepName, pathName?, h.named]
  simp [hbase, h.uri]

/-- A path cannot say a local part that is none. -/
lemma pathName?_eq_none (hn : ¬ Text.IsName name.base) : r.pathName?.isSome = false := by
  have hbase : Node.isPathName name.base = false := by
    simpa using fun hp => hn (Text.isPathName_iff.mp hp)
  rw [pathName?, h.named]
  simp [hbase]

/-- The step by the local part of the name leads to the root element alone. -/
lemma selects_toRoot (namespaces : List (Text × Text)) (f : Frame) :
    Selects ⟨r.document, namespaces⟩ (toRoot (.name none name.base)) f (· = r.address) := by
  have hname := h.named
  obtain ⟨i, rfl, hu⟩ := h.exists_address
  obtain ⟨m, hm, hmname⟩ := exists_markup hname
  refine ((selects_root f).child rfl).congr fun b => ?_
  constructor
  · rintro ⟨_, rfl, j, rfl, hp⟩
    rw [hu j (isElementAt_of_passesAt hp)]
  · rintro rfl
    refine ⟨[], rfl, i, rfl, passesAt_iff.mpr ⟨m, hm, ?_⟩⟩
    simp [Markup.passes, NodeTest.accepts, isMainKind, isNamed, isIn, Document.Item.name?,
      Markup.isElement, hmname, h.uri]

end Node.IsRootOf

/-! ### Behind the name and behind the point -/

/-- An expression with the result of the context node at the root element. -/
lemma eval_toRoot {test : NodeTest}
    (h : Selects ⟨d, namespaces⟩ (toRoot test) { place := r.place } (· = r.address)) :
    eval ⟨d, namespaces⟩ (toRoot test) { place := r.place } =
      eval ⟨d, namespaces⟩ .here { place := r.place } := by
  obtain ⟨ps, he, hs, hm⟩ := h
  have hps : ps = [r.place] := by
    refine hs.eq_of_mem_iff (by simp [Place.Sorted]) fun p => ?_
    simp [hm, Node.place]
  rw [he, hps, eval]

/-- **Behind the name of the root element** a text selects what the rest selects behind a
point. -/
theorem evaluate_point (h : r.IsRootOf d name) (hn : Text.IsName name.base) (s : Text) :
    evaluate ('.' :: '/' :: s) (.node r) namespaces =
      evaluate ('/' :: (name.base ++ '/' :: s)) (.node r) namespaces := by
  have hread := rel_read? (isKept_eval ⟨r.document, namespaces⟩ { place := r.place })
    (testReads_name hn) (eval_toRoot (h.selects_toRoot namespaces _)) s
  have hcheck : checkText ('/' :: (name.base ++ '/' :: s)) = checkText ('.' :: '/' :: s) := by
    rw [checkText, checkText, Text.isXmlText_behind (Text.isXmlText_of_isName hn)]
  rw [evaluate, evaluate, hcheck]
  generalize Expr.read? ('/' :: (name.base ++ '/' :: s)) = x at hread ⊢
  generalize Expr.read? ('.' :: '/' :: s) = y at hread ⊢
  cases hread with
  | none => rfl
  | some he => simp [startNode, selectFrom, Env.select, Node.place] at he ⊢; rw [he]

namespace Generator

/-- From a document expressions start at its root element. -/
lemma firstElement_document (hroot : d.root? = some r) (s : Text)
    (namespaces : List (Text × Text)) :
    firstElement s (.document d) namespaces = firstElement s (.node r) namespaces := by
  have hsource := Context.source_eq_of_startNode (c := .document d) (n := r)
    (by simp [startNode, hroot])
  have hsource' : (Context.node r).source = r.document := rfl
  rw [firstElement, firstElement, hsource, hsource', evaluate, evaluate, startNode, startNode,
    hroot]

/-- The name of the root element by itself finds the root element. -/
lemma firstElement_tag (h : r.IsRootOf d name) (hn : Text.IsName name.base)
    (hcheck : checkNamespaces namespaces = .ok ()) :
    firstElement ('/' :: name.base) (.node r) namespaces = .ok (some r) := by
  have hread : Expr.read? ('/' :: name.base) = some (toRoot (.name none name.base)) := by
    have hsteps : StepsRead 0 ('/' :: name.base ++ []) .root (toRoot (.name none name.base)) :=
      .child ((testReads_name hn).step 0) (.nil _)
    have hreads := reads_absolute (by simpa using hsteps) (by simp)
    exact (hreads.lift le_rfl (by simp)).read? (by decide)
  have hxml : Text.isXmlText ('/' :: name.base) := by
    rw [Text.isXmlText_slash, Text.isXmlText_of_isName hn]
  have hstart : StartsAt (.node r) r namespaces := ⟨rfl, hcheck⟩
  exact (finds_of_selects (h.document_eq.symm ▸ h.whole) hstart hxml hread
    (h.selects_toRoot namespaces _) rfl h.isElement fun _ => Iff.rfl).first

/-- Where a prefix cannot be bound nothing is looked for. -/
lemma firstElement_unbound {e : Failure} (hcheck : checkNamespaces namespaces = .error e) (s : Text) :
    firstElement s (.node r) namespaces = .error e := by
  have heval : evaluate s (.node r) namespaces = .error e := by simp [evaluate, startNode, hcheck]
  simp [firstElement, heval, isPath_of_checkNamespaces hcheck]

/-- No expression fails for a name that paths cannot say. -/
lemma firstElement_ne_unnameable (s : Text) :
    firstElement s (.node r) namespaces ≠ .error .unnameable := by
  intro h
  have heval : evaluate s (.node r) namespaces = .error .unnameable := by
    rw [firstElement] at h
    split at h
    · simp at h
    · simp at h
    · next e he =>
      split_ifs at h
      exact he.trans (congrArg Except.error (Except.error.inj h))
  rcases bind_eq_error.mp heval with hstart | ⟨n, -, heval⟩
  · simp [startNode] at hstart
  rcases bind_eq_error.mp heval with hcheck | ⟨-, -, heval⟩
  · rcases checkNamespaces_eq_error hcheck with he | he | he <;> simp at he
  rcases bind_eq_error.mp heval with htext | ⟨-, -, heval⟩
  · rw [checkText] at htext
    split_ifs at htext
    simp at htext
  · split at heval
    · simp at heval
    · obtain ⟨why, -, he⟩ := mapError_eq_error.mp heval
      simp at he

section Root

variable (h : r.IsRootOf d name) (hroot : (g.settings o).root = .nothing)
  (hns : (g.settings o).namespaces.getD [] = [])
include h hroot hns

/-- From the document a path is looked for as it is. -/
lemma resolve_fromDocument (hx : normalize x ≠ []) :
    g.resolve x (.document d) o = firstElement (normalize x) (.node r) r.namespaces := by
  have hfirst : firstPresent [(g.settings o).root, .document d, g.document] = .document d := by
    rw [hroot]
    rfl
  rw [resolve_eq rfl hx hfirst rfl, Plan.of_document, ok_bind, prefixes_document hns h.isRoot]
  exact firstElement_document h.isRoot (normalize x) r.namespaces

/-- From the root element a path is looked for as the plan for it says. -/
lemma resolve_fromRoot (hx : normalize x ≠ []) :
    g.resolve x (.node r) o = Plan.of (normalize x) (.node r) >>= fun plan =>
      match plan with
      | .node n => .ok (some n)
      | .expression e => firstElement e (.node r) r.namespaces := by
  have hfirst : firstPresent [(g.settings o).root, .node r, g.document] = .node r := by
    rw [hroot]
    rfl
  have hplan := resolve_eq (g := g) (o := o) rfl hx hfirst rfl
  rw [prefixes_node hns h.isElement] at hplan
  exact hplan

/-- Where paths cannot say the name of the root element nothing is looked for from it. -/
lemma resolve_unnameable (hn : ¬ Text.IsName name.base) (hx : normalize x ≠ []) :
    g.resolve x (.node r) o = .error .unnameable := by
  have helement : (Thing.node r).element? = some r := by simp [Thing.element?, h.isElement]
  rw [resolve_fromRoot h hroot hns hx, Plan.of_eq_error helement (h.pathName?_eq_none hn), error_bind]

/-- The name of the root element by itself is taken for it, whatever is bound. -/
lemma resolve_own (hn : Text.IsName name.base) (hx : normalize x = '/' :: name.base) :
    g.resolve x (.node r) o = .ok (some r) := by
  rw [resolve_fromRoot h hroot hns (by simp [hx]), Plan.of_node h.isElement (h.stepName hn), if_pos hx]
  rfl

/-- Every other text comes to the same. -/
lemma resolve_root_of_ne (hn : Text.IsName name.base) (hx : normalize x ≠ [])
    (hne : normalize x ≠ '/' :: name.base) :
    g.resolve x (.node r) o = g.resolve x (.document d) o := by
  rw [resolve_fromRoot h hroot hns hx, resolve_fromDocument h hroot hns hx,
    Plan.of_node h.isElement (h.stepName hn), if_neg hne]
  cases hb : Text.behind? ('/' :: name.base ++ ['/']) (normalize x) with
  | none => rfl
  | some rest =>
      have htext : normalize x = '/' :: (name.base ++ '/' :: rest) := by
        simpa using Text.behind?_eq_some.mp hb
      simp only [htext, ok_bind, firstElement, evaluate_point h hn rest]

end Root

/-- **Looking from the root element** comes to what looking from the document comes to, with
the same failures, if neither another root nor prefixes are chosen, exactly where the text is
blank, or paths can say the name of the root element and the text is another one than this
name, or every prefix in force there can be bound. For a root element that paths cannot name
looking from it fails, and its name alone is found from it whatever is bound, while looking from
the document fails for a prefix that cannot be bound. -/
theorem resolve_root_iff (h : r.IsRootOf d name) (hroot : (g.settings o).root = .nothing)
    (hns : (g.settings o).namespaces.getD [] = []) (x : Text) :
    (g.resolve x (.node r) o = g.resolve x (.document d) o ↔
      normalize x = [] ∨ Text.IsName name.base ∧
        (normalize x = '/' :: name.base → checkNamespaces r.namespaces = .ok ())) ∧
    (normalize x ≠ [] → ¬ Text.IsName name.base →
      g.resolve x (.node r) o = .error .unnameable) ∧
    (Text.IsName name.base → normalize x = '/' :: name.base →
      g.resolve x (.node r) o = .ok (some r) ∧
        ∀ e, checkNamespaces r.namespaces = .error e →
          g.resolve x (.document d) o = .error e) := by
  have hunbound : Text.IsName name.base → normalize x = '/' :: name.base →
      ∀ e, checkNamespaces r.namespaces = .error e → g.resolve x (.document d) o = .error e :=
    fun hn hx e he => by
      rw [resolve_fromDocument h hroot hns (by simp [hx]), firstElement_unbound he]
  refine ⟨?_, fun hx hn => resolve_unnameable h hroot hns hn hx,
    fun hn hx => ⟨resolve_own h hroot hns hn hx, hunbound hn hx⟩⟩
  rcases eq_or_ne (normalize x) [] with hx | hx
  · exact iff_of_true (by rw [resolve, resolve, hx]) (.inl hx)
  by_cases hn : Text.IsName name.base
  · rcases eq_or_ne (normalize x) ('/' :: name.base) with hown | hother
    · rw [resolve_own h hroot hns hn hown]
      cases hcheck : checkNamespaces r.namespaces with
      | ok u =>
          rw [resolve_fromDocument h hroot hns hx, hown, firstElement_tag h hn hcheck]
          exact iff_of_true rfl (.inr ⟨hn, fun _ => rfl⟩)
      | error e =>
          rw [hunbound hn hown e hcheck]
          exact iff_of_false (by simp) (by simp [hown])
    · exact iff_of_true (resolve_root_of_ne h hroot hns hn hx hother)
        (.inr ⟨hn, fun hown => absurd hown hother⟩)
  · refine iff_of_false (fun heq => ?_) (by simp [hx, hn])
    rw [resolve_unnameable h hroot hns hn hx, resolve_fromDocument h hroot hns hx] at heq
    exact firstElement_ne_unnameable _ heq.symm

/-- Both parts of a union start at the root element, but only the first one is taken to start
from it. -/
theorem resolve_root_prefixedTwins :
    (⟨prefixedTwins, [0]⟩ : Node).IsRootOf prefixedTwins { base := ['r'] } ∧
      Plan.of "/r//p:*[2] | /r/..".toList (.node ⟨prefixedTwins, [0]⟩) =
        .ok (.expression ".//p:*[2] | /r/..".toList) ∧
      ({} : Generator).resolve "/r//p:*[2] | /r/..".toList (.node ⟨prefixedTwins, [0]⟩) none =
        ({} : Generator).resolve "/r//p:*[2] | /r/..".toList (.document prefixedTwins) none ∧
      (({} : Generator).resolve "/r//p:*[2] | /r/..".toList (.document prefixedTwins)
        none).toOption.map (·.map Node.address) = some (some [2, 0]) := by
  have hroot : (⟨prefixedTwins, [0]⟩ : Node).IsRootOf prefixedTwins { base := ['r'] } :=
    ⟨rfl, by decide, rfl, rfl⟩
  have hname : Text.IsName ['r'] := Text.isPathName_iff.mp rfl
  have hsame := (resolve_root_iff (g := {}) (o := none) hroot rfl rfl
    "/r//p:*[2] | /r/..".toList).1.mpr (.inr ⟨hname, fun h => absurd h (by decide)⟩)
  exact ⟨hroot, rfl, hsame, by decide +kernel⟩

/-- A root element that paths cannot name: its name holds a colon, and it is in no namespace. -/
def colonRoot : Document where
  key := 0
  content := [.element { base := "a:b".toList } [] [] [.element { base := ['c'] } [] [] []]]

/-- A root element that binds a prefix to no namespace. -/
def emptyBinding : Document where
  key := 0
  content := [.element { base := ['r'] } [⟨some ['p'], []⟩] [] []]

/-- From either root element a path does not come to what it comes to from the document: from
the first one nothing is looked for, and from the second one its name is found though nothing
can be evaluated there. -/
theorem resolve_root_differs :
    ((⟨colonRoot, [0]⟩ : Node).IsRootOf colonRoot { base := "a:b".toList } ∧
      (({} : Generator).resolve "//c".toList (.document colonRoot) none).toOption.map
        (·.map Node.address) = some (some [0, 0]) ∧
      ({} : Generator).resolve "//c".toList (.node ⟨colonRoot, [0]⟩) none =
        .error .unnameable) ∧
    ((⟨emptyBinding, [0]⟩ : Node).IsRootOf emptyBinding { base := ['r'] } ∧
      (({} : Generator).resolve "/r".toList (.node ⟨emptyBinding, [0]⟩) none).toOption.map
        (·.map Node.address) = some (some [0]) ∧
      ({} : Generator).resolve "/r".toList (.document emptyBinding) none =
        .error .emptyNamespace) :=
  ⟨⟨⟨rfl, by decide, rfl, rfl⟩, by decide +kernel, rfl⟩,
    ⟨⟨rfl, by decide, rfl, rfl⟩, by decide +kernel, rfl⟩⟩

end Generator

end Locator
