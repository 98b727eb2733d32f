/-
How the program ends

* `Command.selectors`, `Command.makesPaths`: what a command looks up, and whether it
  makes paths of what it finds;
* `Escape`: the failures of a command on a document that are not reported;
* `ends_or_escapes`: **the program ends** with a result, with a message, or with one of
  these failures;
* `run_of_failing_selector`: a selector whose path fails always leads to one.
-/
import Locator.CommandLine.Run
import Locator.Proofs.Generator.Failing
import Locator.Proofs.Html.Bare
import Locator.Proofs.Range.Text

namespace Locator.CommandLine

variable {w : World} {args : List Text} {g : Globals} {c : Command} {l : Loaded} {d : Document}
  {n root : Node} {s p : Text} {label : String} {o : Options} {e : Failure}

/-- The selectors that a command looks up. -/
def Command.selectors : Command → List Text
  | .generate selector | .shortest selector => [selector]
  | .inspect start stop => start :: stop.toList
  | _ => []

/-- Does a command make paths of what it finds? -/
def Command.makesPaths : Command → Bool
  | .generate _ | .shortest _ | .inspect _ _ => true
  | _ => false

/-- The failures of a command on a document that the program does not report. -/
inductive Escape (g : Globals) (d : Document) : Command → Failure → Prop
  /-- A selector of the command or for the root is read, but its path has no result. -/
  | selector {c : Command} {s path : Text} {e : Failure}
    (hs : s ∈ c.selectors ∨ c.needsDocument ∧ g.root = some s)
    (hp : Css.queryPath s = .ok path)
    (h : XPath.evaluateElements path (.document d) [] = .error e) : Escape g d c e
  /-- The path to be resolved holds a character that XML forbids. -/
  | path {p : Text} (h : Text.isXmlText p = false) : Escape g d (.resolve p) .forbiddenText
  /-- The name of the root where a path is resolved cannot stand in a path. -/
  | start {p : Text} {r : Node} (hr : g.rootIn d = .ok (.node r)) (h : r.pathName? = none) :
    Escape g d (.resolve p) .unnameable
  /-- A name, an attribute or a value is in the way of a path. -/
  | obstacle {c : Command} {e : Failure} (hc : c.makesPaths)
    (h : Generator.Obstacle d (Settings.attributesOf (some g.attributes)) e) : Escape g d c e

/-! ### Selectors -/

/-- Elements that are selected are elements of the document. -/
lemma isElementOf_of_mem_elementsOf {ps : List Place} (h : n ∈ XPath.elementsOf d ps) :
    n.IsElementOf d := by
  obtain ⟨q, -, hq⟩ := List.mem_filterMap.mp h
  split at hq
  · split_ifs at hq with hel
    obtain rfl := Option.some.inj hq
    exact ⟨rfl, hel⟩
  · simp at hq

/-- A selector is looked up by its path. -/
lemma query_document (hroot : d.root? = some root) : Lookup.query (.document d) s =
    (Css.queryPath s).mapError .selector >>= fun path =>
      XPath.evaluateElements path (.document d) [] := by
  obtain rfl := (Document.isElementOf_root hroot).document_eq
  simp only [Lookup.query, hroot, querySelector]
  refine congrArg _ (funext fun path => ?_)
  simp only [XPath.evaluateElements, XPath.evaluate, XPath.startNode, hroot]
  rfl

/-- The first match fails with a message, unless the selector is read and its path has no
result. -/
lemma firstMatch_eq_error (hroot : d.root? = some root) (h : firstMatch d s label = .error e) :
    isReported e = true ∨ ∃ path, Css.queryPath s = .ok path ∧
      XPath.evaluateElements path (.document d) [] = .error e := by
  rw [firstMatch, query_document hroot] at h
  rcases bind_eq_error.mp h with h | ⟨ns, -, h⟩
  · rcases bind_eq_error.mp h with h | ⟨path, hpath, h⟩
    · obtain ⟨why, -, rfl⟩ := mapError_eq_error.mp h
      exact .inl (by cases why <;> rfl)
    · exact .inr ⟨path, mapError_eq_ok.mp hpath, h⟩
  · cases ns with
    | nil =>
        obtain rfl : .noMatch label.toList s = e := by simpa using h
        exact .inl rfl
    | cons n ns => simp at h

/-- The first match is an element of the document. -/
lemma isElementOf_of_firstMatch (hroot : d.root? = some root) (h : firstMatch d s label = .ok n) :
    n.IsElementOf d := by
  rw [firstMatch, query_document hroot] at h
  obtain ⟨ns, hns, h⟩ := bind_eq_ok.mp h
  obtain ⟨path, -, hns⟩ := bind_eq_ok.mp hns
  obtain ⟨ps, -, hns⟩ := bind_eq_ok.mp hns
  cases ns with
  | nil => simp at h
  | cons m ms =>
      obtain rfl : m = n := by simpa using h
      have hmem : m ∈ XPath.elementsOf d ps := (Except.ok.inj hns).symm ▸ List.mem_cons_self
      exact isElementOf_of_mem_elementsOf hmem

/-! ### Options -/

/-- The root is not found where its selector fails. -/
lemma rootIn_eq_error (hroot : d.root? = some root) (h : g.rootIn d = .error e) :
    isReported e = true ∨ ∃ s path, g.root = some s ∧ Css.queryPath s = .ok path ∧
      XPath.evaluateElements path (.document d) [] = .error e := by
  rw [Globals.rootIn] at h
  split at h
  · next a s hs =>
    exact (firstMatch_eq_error hroot ((bind_eq_error.mp h).resolve_right (by simp))).imp_right
      fun ⟨path, hpath⟩ => ⟨_, path, hs, hpath⟩
  · simp at h

/-- The options are those of the root. -/
lemma options_eq_error (hroot : d.root? = some root) (hc : c.needsDocument)
    (h : g.options d = .error e) : isReported e = true ∨ Escape g d c e := by
  rcases bind_eq_error.mp h with h | ⟨x, -, h⟩
  · exact (rootIn_eq_error hroot h).imp_right fun ⟨s, path, hs, hpath, h⟩ =>
      .selector (.inr ⟨hc, hs⟩) hpath h
  · simp at h

/-- What paths are made with: the built-in heuristics, the chosen root and the attributes
that are asked for. -/
lemma of_options (hroot : d.root? = some root) (h : g.options d = .ok o) :
    let s := (Generator.forDocument (.document d)).settings (some o)
    s.IsWithin d ∧ g.rootIn d = .ok s.root ∧
      s.attributes = Settings.attributesOf (some g.attributes) := by
  obtain ⟨x, hx, h⟩ := bind_eq_ok.mp h
  obtain rfl := Except.ok.inj h
  refine ⟨⟨?_, rfl⟩, hx, ?_⟩
  · change x = .nothing ∨ ∃ r, x = .node r ∧ r.IsElementOf d
    rw [Globals.rootIn] at hx
    split at hx
    · obtain ⟨r, hr, hx⟩ := bind_eq_ok.mp hx
      exact .inr ⟨r, (Except.ok.inj hx).symm, isElementOf_of_firstMatch hroot hr⟩
    · exact .inl (Except.ok.inj hx).symm
  · change Settings.attributesOf (if g.attributes.isEmpty then none else some g.attributes) = _
    split_ifs with hempty
    · rw [List.isEmpty_iff.mp hempty]
      rfl
    · rfl

/-! ### Answers -/

/-- The failures of paths are reported, but for obstacles. -/
lemma reported_or_escape (hc : c.makesPaths) {attributes : List Text}
    (ha : attributes = Settings.attributesOf (some g.attributes))
    (h : e = .noRoot ∨ e = .outsideRoot ∨ Generator.Obstacle d attributes e) :
    isReported e = true ∨ Escape g d c e := by
  rcases h with rfl | rfl | h
  · exact .inl rfl
  · exact .inl rfl
  · exact .inr (.obstacle hc (ha ▸ h))

/-- The failures of the path of the first match. -/
lemma pathAnswer_eq_error (hroot : d.root? = some root) (hs : s ∈ c.selectors)
    (hc : c.makesPaths ∧ c.needsDocument) {make : Generator → Node → Option Options → Traced Text}
    (hmake : ∀ {n o e}, n.IsElementOf d →
      ((Generator.forDocument (.document d)).settings (some o)).IsWithin d →
      (make (.forDocument (.document d)) n (some o)).outcome = .error e →
        e = .noRoot ∨ e = .outsideRoot ∨ Generator.Obstacle d
          ((Generator.forDocument (.document d)).settings (some o)).attributes e)
    (h : pathAnswer g d s make = .error e) : isReported e = true ∨ Escape g d c e := by
  rcases bind_eq_error.mp h with h | ⟨n, hn, h⟩
  · exact (firstMatch_eq_error hroot h).imp_right fun ⟨path, hpath, h⟩ =>
      .selector (.inl hs) hpath h
  rcases bind_eq_error.mp h with h | ⟨o, ho, h⟩
  · exact options_eq_error hroot hc.2 h
  · obtain ⟨hwithin, -, ha⟩ := of_options hroot ho
    exact reported_or_escape hc.1 ha (hmake (isElementOf_of_firstMatch hroot hn) hwithin
      ((bind_eq_error.mp h).resolve_right (by simp)))

/-- The failures of looking for a path. -/
lemma resolveAnswer_eq_error (hd : d.HasBareNames) (hroot : d.root? = some root)
    (h : resolveAnswer g d s = .error e) : isReported e = true ∨ Escape g d (.resolve s) e := by
  rcases bind_eq_error.mp h with h | ⟨o, ho, h⟩
  · exact options_eq_error hroot rfl h
  · obtain ⟨hwithin, hrootIn, -⟩ := of_options hroot ho
    rcases bind_eq_error.mp h with h | ⟨x, -, h⟩
    · rcases Generator.resolve_eq_error hd hroot hwithin h with ⟨hx, rfl⟩ | ⟨r, hr, hname, rfl⟩
      · exact .inr (.path hx)
      · exact .inr (.start (hr ▸ hrootIn) hname)
    · cases x <;> simp at h

/-- A range over two elements starts in the first one and ends there or around the
second one. -/
lemma clone_rangeOver (start stop : Node) :
    (rangeOver start stop).clone.start.container = .node start ∧
      ((rangeOver start stop).clone.stop.container = .node start ∨
        (rangeOver start stop).clone.stop.container = (Boundary.around stop).1) := by
  have haround : (Boundary.around stop).1.isNothing = false := by
    rw [Boundary.around]
    split <;> rfl
  rw [rangeOver]
  split_ifs
  · exact ⟨rfl, .inl rfl⟩
  · rw [Range.clone, Range.endAfter, Boundary.behind, haround]
    exact ⟨rfl, .inr rfl⟩

/-- The elements around its boundaries are elements of the document. -/
lemma isElementOf_containing {start stop k : Node} (hstart : start.IsElementOf d)
    (hstop : stop.IsElementOf d) {b : Boundary}
    (hb : b ∈ [(rangeOver start stop).clone.start, (rangeOver start stop).clone.stop])
    (hk : b.container.containing? = some k) : k.IsElementOf d := by
  have hnode : ∀ {m : Node}, m.IsElementOf d → b.container = .node m → k.IsElementOf d := by
    intro m hm hbm
    rw [hbm] at hk
    obtain rfl : m = k := by simpa [Thing.containing?, hm.isElement] using hk
    exact hm
  obtain ⟨hfirst, hlast⟩ := clone_rangeOver start stop
  rcases List.mem_cons.mp hb with rfl | hb
  · exact hnode hstart hfirst
  · obtain rfl := List.mem_singleton.mp hb
    rcases hlast with hlast | hlast
    · exact hnode hstart hlast
    · rw [Boundary.around] at hlast
      split at hlast
      · rw [hlast] at hk
        exact Document.isElementOf_root (hstop.document_eq ▸ hk)
      · next p hp =>
        obtain ⟨hel, hdoc, -⟩ := Node.of_parentElement? hp
        exact hnode ⟨hdoc.trans hstop.document_eq, hel⟩ hlast

/-- The failures of inspecting a selection. -/
lemma inspectAnswer_eq_error {stop : Option Text} (hroot : d.root? = some root)
    (h : inspectAnswer g d s stop = .error e) :
    isReported e = true ∨ Escape g d (.inspect s stop) e := by
  have hmatch : ∀ {t label}, t ∈ (Command.inspect s stop).selectors →
      firstMatch d t label = .error e → isReported e = true ∨ Escape g d (.inspect s stop) e :=
    fun ht h => (firstMatch_eq_error hroot h).imp_right fun ⟨path, hpath, h⟩ =>
      .selector (.inl ht) hpath h
  rcases bind_eq_error.mp h with h | ⟨first, hfirst, h⟩
  · exact hmatch List.mem_cons_self h
  have hfirst := isElementOf_of_firstMatch hroot hfirst
  rcases bind_eq_error.mp h with h | ⟨last, hlast, h⟩
  · rw [selectionEnd.eq_def] at h
    split at h
    · exact hmatch (by simp [Command.selectors]) h
    · simp at h
  have hlast : last.IsElementOf d := by
    rw [selectionEnd.eq_def] at hlast
    split at hlast
    · exact isElementOf_of_firstMatch hroot hlast
    · exact Except.ok.inj hlast ▸ hfirst
  rcases bind_eq_error.mp h with h | ⟨o, ho, h⟩
  · exact options_eq_error hroot rfl h
  obtain ⟨-, -, ha⟩ := of_options hroot ho
  rcases bind_eq_error.mp h with h | ⟨known, -, h⟩
  · exact reported_or_escape rfl ha
      (Generator.describe_eq_error rfl (fun b hb k => isElementOf_containing hfirst hlast hb) h)
  · dsimp only at h
    split at h
    · simp at h
    · have h := (bind_eq_error.mp h).resolve_right (by simp)
      refine reported_or_escape rfl ha (Generator.commonPath_eq_error rfl (fun t ht k hk => ?_) h)
      have hnode : ∀ {m : Node}, m.IsElementOf d → t = .node m → k.IsElementOf d := by
        rintro m hm rfl
        obtain rfl : m = k := by simpa [Thing.element?, hm.isElement] using hk
        exact hm
      rcases List.mem_cons.mp ht with ht | ht
      · exact hnode hfirst ht
      · exact hnode hlast (List.mem_singleton.mp ht)

/-- A document that is loaded has names without prefixes and namespaces, and a root. -/
lemma of_load {request : Request} (h : load w request = .ok l) :
    l.document.HasBareNames ∧ ∃ r, l.document.root? = some r := by
  obtain ⟨origin, -, h⟩ := bind_eq_ok.mp h
  obtain ⟨⟨html, source⟩, -, h⟩ := bind_eq_ok.mp h
  obtain ⟨d, hd, h⟩ := bind_eq_ok.mp h
  obtain rfl := Except.ok.inj h
  exact ⟨Html.hasBareNames_of_readHtml hd, Html.exists_root_of_readHtml hd⟩

/-- **The failures of a command** on a document that is loaded. -/
theorem answer_eq_error (hload : c.needsDocument → load w g.request = .ok l)
    (h : answer w g c = .error e) : isReported e = true ∨ Escape g l.document c e := by
  cases c with
  | generate s =>
      obtain ⟨hd, root, hroot⟩ := of_load (hload rfl)
      rw [answer, hload rfl, ok_bind] at h
      exact pathAnswer_eq_error hroot List.mem_cons_self ⟨rfl, rfl⟩
        (fun hn _ h => Generator.pathOf_eq_error rfl hn h) h
  | shortest s =>
      obtain ⟨hd, root, hroot⟩ := of_load (hload rfl)
      rw [answer, hload rfl, ok_bind] at h
      exact pathAnswer_eq_error hroot List.mem_cons_self ⟨rfl, rfl⟩
        (fun hn hs h => Generator.shortest_eq_error rfl hd hs hn h) h
  | resolve p =>
      obtain ⟨hd, root, hroot⟩ := of_load (hload rfl)
      rw [answer, hload rfl, ok_bind] at h
      exact resolveAnswer_eq_error hd hroot h
  | inspect start stop =>
      obtain ⟨hd, root, hroot⟩ := of_load (hload rfl)
      rw [answer, hload rfl, ok_bind] at h
      exact inspectAnswer_eq_error hroot h
  | toXPath s =>
      obtain ⟨why, -, rfl⟩ := mapError_eq_error.mp h
      exact .inl rfl
  | toCss p => simp [answer] at h

/-! ### Endings -/

/-- **The program ends** with a result alone and the status 0, or with a message alone and the
status 2, or with a failure that it does not report. -/
theorem ends_or_escapes (hargs : readArguments args = .ok (g, c))
    (hload : c.needsDocument → load w g.request = .ok l) :
    (∃ v, run w args = .done (written g.json v) ∧ (run w args).status = 0) ∨
    (∃ e, isReported e = true ∧ run w args = .failed (e.message ++ ['\n']) ∧
      (run w args).status = 2) ∨
    ∃ e, run w args = .unexpected e ∧ Escape g l.document c e := by
  rw [run, hargs]
  dsimp only
  cases h : answer w g c with
  | ok v => exact .inl ⟨v, rfl, rfl⟩
  | error e =>
      dsimp only
      split_ifs with hreported
      · exact .inr (.inl ⟨e, hreported, rfl, rfl⟩)
      · exact .inr (.inr ⟨e, rfl, (answer_eq_error hload h).resolve_left hreported⟩)

/-- A paragraph on the input, and nothing else to be read. -/
def paragraph : World where
  read _ := .error .missing
  render _ := .error .noBrowser
  input := "<p>hi</p>".toList

/-- The paragraph is loaded. -/
lemma exists_load_paragraph : ∃ l, load paragraph {} = .ok l := by
  have hsome : (load paragraph {}).toOption.isSome = true := by decide +kernel
  obtain ⟨l, hl⟩ := Option.isSome_iff_exists.mp hsome
  exact ⟨l, eq_ok_of_toOption hl⟩

/-- With a root and an attribute that is preferred the program ends in one of these ways. -/
theorem ends_paragraph :
    let args := ["--root".toList, "body".toList, "--prefer-attr".toList, "lang".toList,
      "shortest".toList, "p".toList]
    let g : Globals := { attributes := ["lang".toList], root := some "body".toList }
    let c := Command.shortest ['p']
    readArguments args = .ok (g, c) ∧ ∃ l, load paragraph g.request = .ok l ∧
      ((∃ v, run paragraph args = .done (written g.json v) ∧ (run paragraph args).status = 0) ∨
      (∃ e, isReported e = true ∧ run paragraph args = .failed (e.message ++ ['\n']) ∧
        (run paragraph args).status = 2) ∨
      ∃ e, run paragraph args = .unexpected e ∧ Escape g l.document c e) := by
  intro args g c
  have hargs : readArguments args = .ok (g, c) := eq_ok_of_toOption (by decide +kernel)
  obtain ⟨l, hl⟩ := exists_load_paragraph
  exact ⟨hargs, l, hl, ends_or_escapes hargs fun _ => hl⟩

/-! ### Selectors that fail -/

/-- The failures of the paths of selectors are not reported. -/
lemma isReported_of_evaluateElements (hroot : d.root? = some root)
    (h : XPath.evaluateElements p (.document d) [] = .error e) : isReported e = false := by
  have hstart : XPath.StartsAt (.document d) root [] := ⟨by rw [XPath.startNode, hroot], rfl⟩
  rcases XPath.evaluateElements_eq_error hstart h with hpath | ⟨-, rfl⟩
  · cases e with
    | path why => rfl
    | _ => simp [Failure.isPath] at hpath
  · rfl

/-- **A selector that is read while its path has no result** leads to a failure that is not
reported, for each command that looks it up first. -/
theorem run_of_failing_selector (hargs : readArguments args = .ok (g, c))
    (hload : load w g.request = .ok l) (hs : c.selectors.head? = some s)
    (hp : Css.queryPath s = .ok p)
    (h : XPath.evaluateElements p (.document l.document) [] = .error e) :
    run w args = .unexpected e := by
  obtain ⟨-, root, hroot⟩ := of_load hload
  have hmatch : ∀ label, firstMatch l.document s label = .error e := by
    intro label
    rw [firstMatch, query_document hroot, hp]
    exact congrArg (· >>= _) h
  have hanswer : answer w g c = .error e := by
    cases c with
    | generate t | shortest t =>
        obtain rfl : t = s := by simpa [Command.selectors] using hs
        rw [answer, hload, ok_bind, pathAnswer, hmatch, error_bind]
    | inspect t stop =>
        obtain rfl : t = s := by simpa [Command.selectors] using hs
        rw [answer, hload, ok_bind, inspectAnswer, hmatch, error_bind]
    | _ => simp [Command.selectors] at hs
  rw [run, hargs]
  simp [hanswer, isReported_of_evaluateElements hroot h]

/-- A selector with a prefix is read, and no prefix is bound where its path is evaluated: the
program ends with a failure that it does not report. -/
theorem run_prefixedSelector :
    (∃ l, load paragraph {} = .ok l) ∧
      ∃ e, isReported e = false ∧
        run paragraph ["generate".toList, "x|a".toList] = .unexpected e := by
  obtain ⟨l, hl⟩ := exists_load_paragraph
  have hargs : readArguments ["generate".toList, "x|a".toList] =
      .ok ({}, .generate "x|a".toList) := eq_ok_of_toOption (by decide +kernel)
  have hpath : Css.queryPath "x|a".toList = .ok "descendant-or-self::x:a".toList :=
    eq_ok_of_toOption (by decide +kernel)
  have hnone : ((load paragraph {}).toOption.all fun l => (XPath.evaluateElements
      "descendant-or-self::x:a".toList (.document l.document) []).toOption.isNone) = true := by
    decide +kernel
  rw [hl, Except.toOption, Option.all_some] at hnone
  obtain ⟨-, root, hroot⟩ := of_load hl
  cases heval : XPath.evaluateElements "descendant-or-self::x:a".toList
      (.document l.document) [] with
  | ok ns =>
      rw [heval] at hnone
      simp [Except.toOption] at hnone
  | error e =>
      exact ⟨⟨l, hl⟩, e, isReported_of_evaluateElements hroot heval,
        run_of_failing_selector hargs hl rfl hpath heval⟩

end Locator.CommandLine
