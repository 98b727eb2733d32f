/-
What is answered for expressions without a result

* `XPath.Fails`: a text is no expression, or has no result;
* `Answers`: an operation fails for characters that XML forbids, and has an answer for every
  other text, a given one where the text has no result;
* `answers_evaluate`, `answers_plan`: operations that evaluate a text, or what their plan says;
* `answers_everywhere`: **seven operations** of this kind.
-/
import Locator.Lookup
import Locator.Proofs.Generator.Relative

namespace Locator

open XPath

variable {α β : Type} {context start thing : Thing} {site : Context} {n m : Node}
  {namespaces : List (Text × Text)} {s x : Text} {g : Generator} {o : Option Options}

/-! ### Answers -/

/-- A text is no expression, or it is one without a result. -/
def XPath.Fails (s : Text) (c : Context) (namespaces : List (Text × Text)) : Prop :=
  ∃ why, evaluate s c namespaces = .error (.path why)

/-- An operation on a text fails exactly for characters that XML forbids. Where `fails` holds,
its answer is one of those that `isNone` describes. -/
structure Answers (out : Outcome α) (s : Text) (fails : Prop) (isNone : α → Prop) : Prop where
  forbidden : Text.isXmlText s = false → out = .error .forbiddenText
  allowed : Text.isXmlText s = true → ∃ a, out = .ok a ∧ (fails → isNone a)

namespace Answers

variable {out : Outcome α} {fails : Prop} {isNone : α → Prop}

/-- An answer to a text that XML allows. -/
lemma of_ok {a : α} (hs : Text.isXmlText s = true) (h : out = .ok a) (hf : fails → isNone a) :
    Answers out s fails isNone where
  forbidden hx := absurd hs (by simp [hx])
  allowed _ := ⟨a, h, hf⟩

lemma eq_ok {z : α} (h : Answers out s fails (· = z)) (hs : Text.isXmlText s = true)
    (hf : fails) : out = .ok z := by
  obtain ⟨a, ha, hnone⟩ := h.allowed hs
  rw [ha, hnone hf]

/-- Something is made of the answer. -/
lemma bind {isNone' : β → Prop} {f : α → β} (h : Answers out s fails isNone)
    (hf : ∀ a, isNone a → isNone' (f a)) :
    Answers (out >>= fun a => .ok (f a)) s fails isNone' where
  forbidden hx := by rw [h.forbidden hx, error_bind]
  allowed hx := by
    obtain ⟨a, ha, hnone⟩ := h.allowed hx
    exact ⟨f a, by rw [ha, ok_bind], fun hfails => hf a (hnone hfails)⟩

end Answers

namespace XPath

/-- Every other text has a result, or it fails as an expression. -/
lemma evaluate_allowed (hc : StartsAt site n namespaces) (hs : Text.isXmlText s = true) :
    (∃ ps, evaluate s site namespaces = .ok ps) ∨ Fails s site namespaces := by
  cases he : evaluate s site namespaces with
  | ok ps => exact .inl ⟨ps, rfl⟩
  | error e =>
      have hpath := (evaluate_eq_error hc he).resolve_right (by simp [hs])
      cases e with
      | path why => exact .inr ⟨why, he⟩
      | _ => simp [Failure.isPath] at hpath

lemma fails_of_read? (hc : StartsAt site n namespaces) (hs : Text.isXmlText s = true)
    (hr : Expr.read? s = none) : Fails s site namespaces :=
  ⟨.malformed, evaluate_malformed hc hs hr⟩

end XPath

/-- What is made of the places that a text selects, where a given answer stands for no
result. -/
def orElse (out : Outcome (List Place)) (f : List Place → α) (z : α) : Outcome α :=
  match out with
  | .ok ps => .ok (f ps)
  | .error e => if e.isPath then .ok z else .error e

/-- **What evaluates a text** has an answer for every text that XML allows. -/
theorem answers_evaluate (hc : StartsAt site n namespaces) (f : List Place → α) (z : α) :
    Answers (orElse (evaluate s site namespaces) f z) s (Fails s site namespaces) (· = z) where
  forbidden hs := by rw [evaluate_forbidden hc hs]; rfl
  allowed hs := by
    rcases evaluate_allowed hc hs with ⟨ps, hps⟩ | ⟨why, hwhy⟩
    · refine ⟨f ps, by rw [hps]; rfl, ?_⟩
      rintro ⟨why, hwhy⟩
      simp [hps] at hwhy
    · exact ⟨z, by rw [hwhy]; rfl, fun _ => rfl⟩

/-! ### Selections and counts -/

section Site

variable (hcontext : context.context? = some site) (hc : StartsAt site n namespaces)
include hcontext

/-- What a text selects; nothing if it has no result. -/
lemma answers_select (hc : StartsAt site n site.namespaces) (x : Text) :
    Answers (Lookup.select x context) (normalize x) (Fails (normalize x) site site.namespaces)
      (· = []) := by
  rw [Lookup.select]
  cases hx : normalize x with
  | nil => exact .of_ok rfl rfl fun _ => rfl
  | cons c t =>
      simp only [hcontext]
      exact answers_evaluate hc (fun ps => ps.map (Thing.ofPlace site.source)) []

include hc

/-- The elements among what a text selects. -/
lemma answers_evaluateAt (f : List Node → α) (z : α) (s : Text) :
    Answers (match evaluateAt context s namespaces with
      | .ok ns => .ok (f ns)
      | .error e => if e.isPath then .ok z else .error e) s (Fails s site namespaces) (· = z) := by
  have h := answers_evaluate hc (fun ps => f (elementsOf site.source ps)) z (s := s)
  simp only [evaluateAt, hcontext, evaluateElements]
  cases he : evaluate s site namespaces <;> simpa [orElse, he] using h

/-- The number of elements that a text selects; zero if it has no result. -/
lemma answers_countMatches (x : Text) :
    Answers (countMatches context x namespaces) (Text.strip x)
      (Fails (Text.strip x) site namespaces) (· = 0) := by
  rw [countMatches]
  cases hx : Text.strip x with
  | nil => exact .of_ok rfl rfl fun _ => rfl
  | cons c t => exact answers_evaluateAt hcontext hc List.length 0 (c :: t)

/-- The verdict on a text; it selects nothing alone and nothing at all if it has no result. -/
lemma answers_check (target : Thing) (x : Text) :
    Answers (check context x target namespaces) (Text.strip x)
      (Fails (Text.strip x) site namespaces) fun v => v.isUnique = false ∧ v.count = 0 := by
  rw [check]
  cases hx : Text.strip x with
  | nil => exact .of_ok rfl rfl fun _ => ⟨rfl, rfl⟩
  | cons c t =>
      have h := answers_evaluateAt hcontext hc (Verdict.ofMatches target) .unusable (c :: t)
      refine ⟨h.forbidden, fun hs => ?_⟩
      obtain ⟨v, hv, hnone⟩ := h.allowed hs
      exact ⟨v, hv, fun hf => hnone hf ▸ ⟨rfl, rfl⟩⟩

end Site

/-! ### Plans -/

namespace Generator

/-- The first element that a text selects; nothing if it has no result. -/
lemma answers_firstElement (hc : StartsAt site n namespaces) (s : Text) :
    Answers (firstElement s site namespaces) s (Fails s site namespaces) (· = none) := by
  have h := answers_evaluate hc
    (fun ps => ps.head?.bind fun p => (Thing.ofPlace site.source p).element?) none (s := s)
  rw [firstElement]
  cases he : evaluate s site namespaces with
  | error e => simpa [orElse, he] using h
  | ok ps => cases ps <;> simpa [orElse, he] using h

/-- What an expression is looked for from: usable bindings, and the name of an element that
XML allows. -/
structure LooksFrom (g : Generator) (context : Thing) (o : Option Options) (start : Thing)
    (site : Context) (n : Node) : Prop where
  first : firstPresent [(g.settings o).root, context, g.document] = start
  isSite : start.context? = some site
  startsAt : StartsAt site n (prefixes (g.settings o) start)
  named : ∀ r, start.element? = some r → r.HasXmlName

/-- A text is no expression, or what is to be evaluated for it fails. -/
def PlanFails (g : Generator) (o : Option Options) (start : Thing) (site : Context) (s : Text) :
    Prop :=
  Expr.read? s = none ∨ ∃ e, Plan.of s start = .ok (.expression e) ∧
    Fails e site (prefixes (g.settings o) start)

/-- A text fails as what stands behind a point instead of the name of the root. -/
lemma read?_point {name : Name} (hx : name.isXml = true) (s : Text) :
    Expr.read? ('/' :: (name.inPath ++ '/' :: s)) = none ↔ Expr.read? ('.' :: '/' :: s) = none := by
  have hkept : IsKept fun _ _ => True := ⟨fun _ _ _ _ => trivial, fun _ _ _ => trivial⟩
  have hrel := rel_read? hkept (testReads_inPath hx) trivial s
  generalize Expr.read? ('/' :: (name.inPath ++ '/' :: s)) = a at hrel ⊢
  generalize Expr.read? ('.' :: '/' :: s) = b at hrel ⊢
  cases hrel <;> simp

/-- The name of an element behind a slash is an expression. -/
lemma read?_inPath {name : Name} (hx : name.isXml = true) :
    Expr.read? ('/' :: name.inPath) = some (toRoot name.test) := by
  have hsteps : StepsRead 0 ('/' :: name.inPath ++ []) .root (toRoot name.test) :=
    .child ((testReads_inPath hx).step 0) (.nil _)
  have hreads := reads_absolute (by simpa using hsteps) (by simp)
  exact (hreads.lift le_rfl (by simp)).read? (by decide)

/-- A text stands for an element, whose name it is, or for an expression that holds
characters that XML forbids, or cannot be read, where the text is such. -/
lemma plan_cases (hnamed : ∀ r, start.element? = some r → r.HasXmlName) (s : Text) :
    (∃ r, Plan.of s start = .ok (.node r) ∧ Text.isXmlText s = true ∧ ∃ e, Expr.read? s = some e) ∨
      ∃ e, Plan.of s start = .ok (.expression e) ∧ Text.isXmlText e = Text.isXmlText s ∧
        (Expr.read? s = none → Expr.read? e = none) := by
  cases hel : start.element? with
  | none => exact .inr ⟨s, by simp [Plan.of, hel], rfl, id⟩
  | some r =>
      obtain ⟨name, hname, hx⟩ := hnamed r hel
      have htag := stepName_eq hname hx
      have hplan : Plan.of s start = Plan.of s (.node r) := by
        cases start <;> simp_all [Thing.element?]
      have hxml : Text.isXmlText name.inPath = true := by
        have hstep : Text.isXmlText (r.stepText .never) = true := isXmlText_stepText hname hx
        rwa [stepText_never, hname] at hstep
      rw [hplan, Plan.of_node (by simp [Node.isElement, hname]) htag]
      split_ifs with hself
      · refine .inl ⟨r, rfl, ?_, _, hself ▸ read?_inPath hx⟩
        rw [hself, Text.isXmlText_slash, hxml]
      · cases hb : Text.behind? ('/' :: name.inPath ++ ['/']) s with
        | none => exact .inr ⟨s, rfl, rfl, id⟩
        | some rest =>
            have hs : s = '/' :: (name.inPath ++ '/' :: rest) := by
              simpa using Text.behind?_eq_some.mp hb
            refine .inr ⟨'.' :: '/' :: rest, rfl, ?_, fun h => (read?_point hx rest).mp (hs ▸ h)⟩
            rw [hs, Text.isXmlText_behind hxml]

/-- **What an expression finds**; nothing if there is no result. -/
theorem answers_resolve (h : g.LooksFrom context o start site n) (x : Text) :
    Answers (g.resolve x context o) (normalize x) (g.PlanFails o start site (normalize x))
      (· = none) := by
  rw [resolve]
  cases hx : normalize x with
  | nil => exact .of_ok rfl rfl fun _ => rfl
  | cons c t =>
      simp only [h.first, h.isSite]
      rcases plan_cases h.named (c :: t) with ⟨r, hplan, hxml, e, he⟩ | ⟨e, hplan, hxml, hread⟩
      · rw [hplan]
        refine .of_ok hxml rfl fun hfails => ?_
        simp [PlanFails, he, hplan] at hfails
      · have hfirst := answers_firstElement h.startsAt e
        rw [hplan]
        refine ⟨fun hs => hfirst.forbidden (hxml.trans hs), fun hs => ?_⟩
        obtain ⟨a, ha, hnone⟩ := hfirst.allowed (hxml.trans hs)
        refine ⟨a, ha, fun hfails => hnone ?_⟩
        rcases hfails with hnot | ⟨e', hplan', hfails⟩
        · exact fails_of_read? h.startsAt (hxml.trans hs) (hread hnot)
        · obtain rfl : e = e' := by simpa [hplan] using hplan'
          exact hfails

/-- Whether an expression finds an element; it does not if there is no result. -/
lemma answers_isMatch (hthing : thing.element? = some m)
    (h : g.LooksFrom (firstPresent [context, .document m.document]) o start site n) (x : Text) :
    Answers (g.isMatch thing x context o) (normalize x) (g.PlanFails o start site (normalize x))
      (· = false) := by
  have hfound : Answers (g.resolve x (firstPresent [context, .document m.document]) o >>= fun y =>
      .ok ((y.map (·.same m)).getD false)) (normalize x) (g.PlanFails o start site (normalize x))
      (· = false) := (answers_resolve h x).bind (by rintro _ rfl; rfl)
  rw [isMatch, hthing]
  convert hfound using 2
  funext found
  cases found <;> rfl

end Generator

/-! ### Everywhere -/

/-- Whether a text is an expression; no text that cannot be read is one. -/
lemma answers_isValid (hbound : checkNamespaces context.namespaces = .ok ()) (x : Text) :
    Answers (Lookup.isValid x context) (normalize x) (Expr.read? (normalize x) = none)
      (· = false) := by
  rw [Lookup.isValid]
  cases hx : normalize x with
  | nil => exact .of_ok rfl rfl fun _ => rfl
  | cons c t =>
      simp only [hbound, ok_bind]
      refine ⟨fun hs => by simp [isExpression, checkText, hs], fun hs => ?_⟩
      exact ⟨isValid (c :: t), by simp [isExpression, checkText, hs], fun h => by simp [isValid, h]⟩

/-- Where a prefix cannot be bound this is told of no text but a blank one. -/
lemma isValid_unbound {e : Failure} (h : checkNamespaces context.namespaces = .error e)
    (hx : normalize x ≠ []) : Lookup.isValid x context = .error e := by
  obtain ⟨c, t, ht⟩ := List.exists_cons_of_ne_nil hx
  simp [Lookup.isValid, ht, h]

/-- **Seven operations** on a text, one of them with and without a context, answer what they
answer for nothing where the text cannot be read, or what is read has no result, and fail only
for characters that XML forbids. -/
theorem answers_everywhere {site' : Context} {n' : Node} (target thing : Thing)
    (hcontext : context.context? = some site) (hown : StartsAt site n site.namespaces)
    (hgiven : StartsAt site n namespaces) (hlooks : g.LooksFrom context o start site' n')
    (hthing : thing.element? = some m) (x : Text) :
    Answers (g.resolve x context o) (normalize x) (g.PlanFails o start site' (normalize x))
        (· = none) ∧
      Answers (Lookup.select x context) (normalize x)
        (Fails (normalize x) site site.namespaces) (· = []) ∧
      Answers (Lookup.selectOne x context) (normalize x)
        (Fails (normalize x) site site.namespaces) (· = none) ∧
      Answers (Lookup.isValid x context) (normalize x) (Expr.read? (normalize x) = none)
        (· = false) ∧
      Answers (Lookup.isValid x .nothing) (normalize x) (Expr.read? (normalize x) = none)
        (· = false) ∧
      Answers (countMatches context x namespaces) (Text.strip x)
        (Fails (Text.strip x) site namespaces) (· = 0) ∧
      Answers (check context x target namespaces) (Text.strip x)
        (Fails (Text.strip x) site namespaces) (fun v => v.isUnique = false ∧ v.count = 0) ∧
      Answers (g.isMatch thing x context o) (normalize x)
        (g.PlanFails o start site' (normalize x)) (· = false) := by
  have hfirst : Generator.firstPresent [context, .document m.document] = context := by
    cases context <;> first | rfl | simp [Thing.context?] at hcontext
  have hselect := answers_select hcontext hown x
  have hbound : checkNamespaces context.namespaces = .ok () := by
    rw [Thing.namespaces, hcontext]
    exact hown.bound
  exact ⟨Generator.answers_resolve hlooks x, hselect, hselect.bind (by rintro _ rfl; rfl),
    answers_isValid hbound x, answers_isValid rfl x, answers_countMatches hcontext hgiven x,
    answers_check hcontext hgiven target x,
    Generator.answers_isMatch hthing (hfirst.symm ▸ hlooks) x⟩

open Generator in
/-- From an element nothing is found by a text that ends within a bracket. -/
theorem answers_everywhere_prefixedTwins :
    Expr.read? "//a[".toList = none ∧
      ({} : Generator).resolve "//a[".toList (.node ⟨prefixedTwins, [0]⟩) none = .ok none ∧
      Lookup.select "//a[".toList (.node ⟨prefixedTwins, [0]⟩) = .ok [] ∧
      Lookup.selectOne "//a[".toList (.node ⟨prefixedTwins, [0]⟩) = .ok none ∧
      Lookup.isValid "//a[".toList (.node ⟨prefixedTwins, [0]⟩) = .ok false ∧
      Lookup.isValid "//a[".toList .nothing = .ok false ∧
      countMatches (.node ⟨prefixedTwins, [0]⟩) "//a[".toList [(['p'], ['u'])] = .ok 0 ∧
      (∃ v, check (.node ⟨prefixedTwins, [0]⟩) "//a[".toList .nothing [(['p'], ['u'])] = .ok v ∧
        v.isUnique = false ∧ v.count = 0) ∧
      ({} : Generator).isMatch (.node ⟨prefixedTwins, [0, 0]⟩) "//a[".toList
        (.node ⟨prefixedTwins, [0]⟩) none = .ok false := by
  have hread : Expr.read? "//a[".toList = none := by
    rw [← Option.not_isSome_iff_eq_none]
    decide +kernel
  have hbound : checkNamespaces [(['p'], ['u'])] = .ok () := rfl
  have hstarts : StartsAt (.node ⟨prefixedTwins, [0]⟩) ⟨prefixedTwins, [0]⟩ [(['p'], ['u'])] :=
    ⟨rfl, hbound⟩
  have hlooks : ({} : Generator).LooksFrom (.node ⟨prefixedTwins, [0]⟩) none
      (.node ⟨prefixedTwins, [0]⟩) (.node ⟨prefixedTwins, [0]⟩) ⟨prefixedTwins, [0]⟩ :=
    ⟨rfl, rfl, hstarts, by rintro r ⟨⟩; exact ⟨_, rfl, rfl⟩⟩
  have hfails : Fails "//a[".toList (.node ⟨prefixedTwins, [0]⟩) [(['p'], ['u'])] :=
    fails_of_read? hstarts rfl hread
  obtain ⟨hresolve, hselect, hone, hvalid, halone, hcount, hcheck, hmatch⟩ :=
    answers_everywhere .nothing (.node ⟨prefixedTwins, [0, 0]⟩) rfl hstarts hstarts hlooks rfl
      "//a[".toList
  obtain ⟨v, hv, hnone⟩ := hcheck.allowed rfl
  exact ⟨hread, hresolve.eq_ok rfl (.inl hread), hselect.eq_ok rfl hfails, hone.eq_ok rfl hfails,
    hvalid.eq_ok rfl hread, halone.eq_ok rfl hread, hcount.eq_ok rfl hfails, ⟨v, hv, hnone hfails⟩,
    hmatch.eq_ok rfl (.inl hread)⟩

open Generator in
/-- A control character is no part of an expression either, but every operation fails for it. -/
theorem answers_control_character :
    Expr.read? "//a\u0001".toList = none ∧
      ({} : Generator).resolve "//a\u0001".toList (.document prefixedTwins) none =
        .error .forbiddenText ∧
      Lookup.select "//a\u0001".toList (.document prefixedTwins) = .error .forbiddenText ∧
      Lookup.selectOne "//a\u0001".toList (.document prefixedTwins) = .error .forbiddenText ∧
      Lookup.isValid "//a\u0001".toList (.document prefixedTwins) = .error .forbiddenText ∧
      countMatches (.document prefixedTwins) "//a\u0001".toList [] = .error .forbiddenText ∧
      check (.document prefixedTwins) "//a\u0001".toList .nothing [] = .error .forbiddenText ∧
      ({} : Generator).isMatch (.node ⟨prefixedTwins, [0, 0]⟩) "//a\u0001".toList
        (.document prefixedTwins) none = .error .forbiddenText := by
  have hread : Expr.read? "//a\u0001".toList = none := by
    rw [← Option.not_isSome_iff_eq_none]
    decide +kernel
  exact ⟨hread, rfl, rfl, rfl, rfl, rfl, rfl, rfl⟩

end Locator
