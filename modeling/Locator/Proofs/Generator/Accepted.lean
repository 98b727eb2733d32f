/-
Candidates that are accepted and what they find

* `Thing.SelectsOtherFirst`: from a context a text selects something else than an element
  first;
* `Generator.resolve_of_findsOnly`: **what a text finds that is accepted for an element** is
  this element, or nothing where it selects something else first;
* `Generator.resolve_textInFront`: a text in front of the element is such a thing.
-/
import Locator.Proofs.Generator.Search

namespace Locator

open XPath

variable {d : Document} {c e x : Text} {context start : Thing} {site : Context} {n : Node}
  {namespaces : List (Text × Text)} {g : Generator} {o : Option Options} {p : Place}
  {ps : List Place}

/-- Which of two nodes comes first does not count. -/
lemma Node.same_comm {m : Node} : n.same m = m.same n := by
  rw [Node.same, Node.same, Bool.beq_comm, Bool.beq_comm (a := n.address)]

/-! ### The first of the places that are selected -/

/-- A place is that of an element if it is one as a thing. -/
lemma elementsOf_cons : elementsOf d (p :: ps) =
    (Thing.ofPlace d p).element?.toList ++ elementsOf d ps := by
  have hcons : ∀ m, elementsOf d [p] = m → elementsOf d (p :: ps) = m ++ elementsOf d ps := by
    rintro _ rfl
    rw [elementsOf, elementsOf, elementsOf, ← List.filterMap_append, List.singleton_append]
  refine hcons _ ?_
  cases p with
  | node a =>
      by_cases hel : (⟨d, a⟩ : Node).isElement = true
      · rw [element?_ofPlace (Document.isElement_iff.mp hel)]
        simp [elementsOf, hel]
      · have hnone : (Thing.ofPlace d (.node a)).element? = none := by
          cases a with
          | nil => rfl
          | cons i a =>
              rw [Thing.ofPlace]
              split
              · dsimp only
                split <;> rfl
              · exact if_neg hel
        rw [hnone]
        simp [elementsOf, hel]
  | _ => rfl

/-- From a context what is evaluated for a text selects something else than an element
first: an attribute, a text, a comment or an instruction. -/
def Thing.SelectsOtherFirst (context : Thing) (namespaces : List (Text × Text)) (c : Text) :
    Prop :=
  ∃ e site p ps, Plan.of c context = .ok (.expression e) ∧ context.context? = some site ∧
    evaluate e site namespaces = .ok (p :: ps) ∧
      (Thing.ofPlace site.source p).element? = none

namespace Generator

/-! ### What is accepted -/

/-- Nothing is never accepted. -/
lemma ne_nil_of_findsOnly (h : findsOnly c context namespaces n = .ok true) : c ≠ [] := by
  rintro rfl
  obtain ⟨plan, hplan, h⟩ := bind_eq_ok.mp h
  have hnil : plan = .expression [] := by
    cases hx : context.element? with
    | none => simpa [Plan.of, hx, eq_comm] using hplan
    | some m =>
        simp only [Plan.of, hx] at hplan
        obtain ⟨tag, -, hplan⟩ := bind_eq_ok.mp hplan
        simpa [Text.behind?, eq_comm] using hplan
  subst hnil
  exact absurd (Except.ok.inj h) (by decide)

/-- What finds the first of the places that a text selects, if one element alone is
selected: this element, or nothing if something else comes first. -/
lemma firstElement_of_evaluateElements {m : Node}
    (h : evaluateElements e site namespaces = .ok [m]) :
    ∃ p ps, evaluate e site namespaces = .ok (p :: ps) ∧
      firstElement e site namespaces = .ok (Thing.ofPlace site.source p).element? ∧
        ∀ f, (Thing.ofPlace site.source p).element? = some f → f = m := by
  obtain ⟨places, hplaces, hone⟩ := bind_eq_ok.mp h
  replace hone : elementsOf site.source places = [m] := Except.ok.inj hone
  cases places with
  | nil => exact absurd hone (List.cons_ne_nil _ _).symm
  | cons p ps =>
      refine ⟨p, ps, hplaces, by rw [firstElement, hplaces], fun f hf => ?_⟩
      rw [elementsOf_cons, hf, Option.toList_some, List.singleton_append] at hone
      exact (List.cons_eq_cons.mp hone).1

/-- **What a text finds that is accepted for an element**: this element, or nothing. It is
nothing exactly if the text selects something else than an element first. -/
theorem resolve_of_findsOnly (hx : normalize x = x)
    (hstart : firstPresent [(g.settings o).root, context, g.document] = start)
    (h : findsOnly x start (prefixes (g.settings o) start) n = .ok true) :
    ∃ found, g.resolve x context o = .ok found ∧ (∀ f, found = some f → n.same f = true) ∧
      (found = none ↔ start.SelectsOtherFirst (prefixes (g.settings o) start) x) := by
  have hne := ne_nil_of_findsOnly h
  have htrim : Text.IsTrim x := hx ▸ isTrim_normalize (hx.symm ▸ hne)
  rcases (findsOnly_iff htrim h).mp rfl with ⟨m, hplan, hsame⟩ | ⟨e, m, hplan, helements, hsame⟩
  · obtain ⟨site, hsite⟩ : ∃ site, start.context? = some site := by
      cases start with
      | node r => exact ⟨_, rfl⟩
      | document d => exact ⟨_, rfl⟩
      | _ => simp [Plan.of, Thing.element?] at hplan
    refine ⟨some m, by rw [resolve_eq hx hne hstart hsite, hplan, ok_bind], ?_, ?_⟩
    · rintro f ⟨⟩
      rwa [Node.same_comm]
    · refine iff_of_false (Option.some_ne_none m) ?_
      rintro ⟨e, site, p, ps, he, -⟩
      exact absurd (hplan.symm.trans he) (by simp)
  · obtain ⟨site, hsite⟩ : ∃ site, start.context? = some site := by
      cases hc : start.context? with
      | none => simp [evaluateAt, hc] at helements
      | some site => exact ⟨site, rfl⟩
    rw [evaluateAt, hsite] at helements
    obtain ⟨p, ps, hplaces, hfirst, hfound⟩ := firstElement_of_evaluateElements helements
    refine ⟨_, by rw [resolve_eq hx hne hstart hsite, hplan, ok_bind]; exact hfirst, ?_, ?_⟩
    · intro f hf
      rwa [hfound f hf]
    · constructor
      · exact fun hnone => ⟨e, site, p, ps, hplan, hsite, hplaces, hnone⟩
      · rintro ⟨e', site', p', ps', hplan', hsite', hplaces', hnone⟩
        obtain rfl : e = e' := by simpa [hplan] using hplan'
        obtain rfl : site = site' := Option.some.inj (hsite.symm.trans hsite')
        obtain ⟨rfl, rfl⟩ : p = p' ∧ ps = ps' := by simpa [hplaces] using hplaces'
        exact hnone

/-- A text in front of an element. -/
def textInFront : Document where
  key := 0
  content := [.element { base := ['r'] } [] [] [.text ['t'], .element { base := ['a'] } [] [] []]]

/-- The path by the name of an element finds it behind the text. -/
theorem resolve_behindText :
    (normalize "//a".toList = "//a".toList ∧
      firstPresent [.nothing, .document textInFront, .nothing] = .document textInFront ∧
      findsOnly "//a".toList (.document textInFront) [] ⟨textInFront, [1, 0]⟩ = .ok true) ∧
    ∃ found, ({} : Generator).resolve "//a".toList (.document textInFront) none = .ok found ∧
      (∀ f, found = some f → (⟨textInFront, [1, 0]⟩ : Node).same f = true) ∧
      (found = none ↔ (Thing.document textInFront).SelectsOtherFirst [] "//a".toList) := by
  have hnormal : normalize "//a".toList = "//a".toList := rfl
  have hstart : firstPresent [.nothing, .document textInFront, .nothing] =
      .document textInFront := rfl
  have haccepted : findsOnly "//a".toList (.document textInFront) [] ⟨textInFront, [1, 0]⟩ =
      .ok true := rfl
  exact ⟨⟨hnormal, hstart, haccepted⟩,
    resolve_of_findsOnly (g := {}) (o := none) hnormal hstart haccepted⟩

/-- **A text in front of an element** hides it: a path that selects both is accepted for the
element and finds nothing. -/
theorem resolve_textInFront :
    (normalize "//a|/r/text()".toList = "//a|/r/text()".toList ∧
      firstPresent [.nothing, .document textInFront, .nothing] = .document textInFront ∧
      findsOnly "//a|/r/text()".toList (.document textInFront) [] ⟨textInFront, [1, 0]⟩ =
        .ok true) ∧
    ({} : Generator).resolve "//a|/r/text()".toList (.document textInFront) none = .ok none := by
  have hnormal : normalize "//a|/r/text()".toList = "//a|/r/text()".toList := rfl
  have hstart : firstPresent [.nothing, .document textInFront, .nothing] =
      .document textInFront := rfl
  have hsite : (Thing.document textInFront).context? = some (.document textInFront) := rfl
  refine ⟨⟨hnormal, hstart, rfl⟩, ?_⟩
  have hfirst : firstElement "//a|/r/text()".toList (.document textInFront) [] = .ok none := rfl
  exact (resolve_eq (g := {}) (o := none) hnormal (List.cons_ne_nil _ _) hstart hsite).trans hfirst

end Generator

end Locator
