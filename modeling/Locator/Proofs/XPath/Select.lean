/-
What steps select

* `exists_eval_of_mem_step`: what a step selects fulfils its predicate;
* `narrow_singleton`: what a predicate keeps, each place being tested with its
  position;
* `Selects`: an expression selects the document and the pieces with given
  addresses, and `Selects.step`: a step selects what it leads to from each;
* `Document.earlier`: how many pieces that pass a test stand in front of an
  address, and `getElem?_onAxis_child`: the position of a child among those that
  pass;
* `Keeps`: what predicates keep of the children that pass a test, with `Keeps.append`: **a
  further predicate** counts the places among what is left;
* `Selects.child_keeps`, `Selects.below_keeps`, `Selects.within` and their companions with no
  predicate or one: **steps to children, to what is below, and to what is inside**.
-/
import Locator.XPath.Eval
import Locator.Proofs.Document.Tree
import Locator.Proofs.Outcome

namespace Locator

/-! ### Positions in filtered lists -/

/-- The position in a filtered list counts the earlier members that pass. -/
lemma getElem?_filter_zipIdx {α : Type*} {p : α → Bool} {l : List α} {k j : ℕ} {x : α × ℕ} :
    ((l.zipIdx k).filter (fun y => p y.1))[j]? = some x ↔
      ∃ i, l[i]? = some x.1 ∧ x.2 = k + i ∧ p x.1 ∧ j = (l.take i).countP p := by
  induction l generalizing k j with
  | nil => simp
  | cons a l ih =>
      constructor
      · intro h
        by_cases ha : p a
        · rw [List.zipIdx_cons, List.filter_cons_of_pos (by simpa using ha)] at h
          cases j with
          | zero =>
              obtain rfl : (a, k) = x := by simpa using h
              exact ⟨0, by simp, by simp, ha, by simp⟩
          | succ j =>
              obtain ⟨i, hi, hx, hp, hj⟩ := ih.mp (by simpa using h)
              exact ⟨i + 1, by simpa using hi, by omega, hp, by simp [ha, hj]⟩
        · rw [List.zipIdx_cons, List.filter_cons_of_neg (by simpa using ha)] at h
          obtain ⟨i, hi, hx, hp, hj⟩ := ih.mp h
          exact ⟨i + 1, by simpa using hi, by omega, hp, by simp [ha, hj]⟩
      · rintro ⟨i, hi, hx, hp, hj⟩
        cases i with
        | zero =>
            obtain rfl : a = x.1 := by simpa using hi
            obtain rfl : j = 0 := by simpa using hj
            simp [hp, Prod.ext_iff, hx]
        | succ i =>
            rw [List.getElem?_cons_succ] at hi
            rw [List.take_succ_cons, List.countP_cons] at hj
            by_cases ha : p a
            · obtain ⟨j, rfl⟩ : ∃ j', j = j' + 1 := ⟨j - 1, by simp [ha] at hj; omega⟩
              have := (ih (k := k + 1)).mpr ⟨i, hi, by omega, hp, by simpa [ha] using hj⟩
              simpa [ha] using this
            · have := (ih (k := k + 1)).mpr ⟨i, hi, by omega, hp, by simpa [ha] using hj⟩
              simpa [ha] using this

/-! ### Pieces that pass a test -/

/-- Does a piece pass the test of a step to pieces? -/
def Markup.passes (test : XPath.NodeTest) (uri : Option Text) (m : Markup) : Bool :=
  test.accepts .child uri (.piece m)

/-- The number of pieces that pass a test in front of an address, below the same
one. -/
def Document.earlier (d : Document) (p : Markup → Bool) : Address → ℕ
  | [] => 0
  | i :: a => ((d.childrenAt a).take i).countP p

namespace XPath

variable {env : Env}

/-! ### Predicates -/

/-- What a predicate keeps from places on, `k` of which have been tested. -/
lemma keepFrom_eq {predicate : Frame → Except EvalError Result} {m k : ℕ}
    {ps : List Place} {Q : Place → ℕ → Bool}
    (h : ∀ x ∈ ps.zipIdx k, ∃ r, predicate ⟨x.1, some (x.2 + 1), some m⟩ = .ok r ∧
      holdsAt (x.2 + 1) r = Q x.1 (x.2 + 1)) :
    keepFrom predicate m k ps =
      .ok (((ps.zipIdx k).filter fun x => Q x.1 (x.2 + 1)).map Prod.fst) := by
  induction ps generalizing k with
  | nil => rfl
  | cons p ps ih =>
      obtain ⟨r, hr, hQ⟩ := h (p, k) (by simp [List.zipIdx_cons])
      have hps := ih (k := k + 1) fun x hx => h x (by simp [List.zipIdx_cons, hx])
      by_cases hp : Q p (k + 1) = true
      · simp [keepFrom, hr, hps, hQ, hp, List.zipIdx_cons]
      · simp [keepFrom, hr, hps, hQ, hp, List.zipIdx_cons]

/-- What one predicate keeps. -/
lemma narrow_singleton {e : Expr} {ps : List Place} {Q : Place → ℕ → Bool}
    (h : ∀ x ∈ ps.zipIdx, ∃ r, eval env e ⟨x.1, some (x.2 + 1), some ps.length⟩ = .ok r ∧
      holdsAt (x.2 + 1) r = Q x.1 (x.2 + 1)) :
    narrow env [e] ps = .ok ((ps.zipIdx.filter fun x => Q x.1 (x.2 + 1)).map Prod.fst) := by
  simp [narrow, keep, keepFrom_eq h]

/-- What is kept fulfils the predicate. -/
lemma of_mem_keepFrom {predicate : Frame → Except EvalError Result} {m k : ℕ}
    {ps qs : List Place} (h : keepFrom predicate m k ps = .ok qs) {p : Place} (hp : p ∈ qs) :
    ∃ k r, predicate ⟨p, some (k + 1), some m⟩ = .ok r ∧ holdsAt (k + 1) r = true := by
  induction ps generalizing k qs with
  | nil =>
      obtain rfl : [] = qs := Except.ok.inj h
      simp at hp
  | cons q ps ih =>
      rw [keepFrom] at h
      obtain ⟨r, hr, h⟩ := bind_eq_ok.mp h
      obtain ⟨rest, hrest, h⟩ := bind_eq_ok.mp h
      obtain rfl := Except.ok.inj h
      split_ifs at hp with hq
      · rcases List.mem_cons.mp hp with rfl | hp
        · exact ⟨k, r, hr, hq⟩
        · exact ih hrest hp
      · exact ih hrest hp

/-- **What a step selects** fulfils its predicate. -/
lemma exists_eval_of_mem_step {e c : Expr} {axis : Axis} {test : NodeTest} {f : Frame}
    {ps : List Place} (h : eval env (.step e axis test [c]) f = .ok (.nodes ps)) {p : Place}
    (hp : p ∈ ps) : ∃ k size r, eval env c ⟨p, some (k + 1), some size⟩ = .ok r ∧
      holdsAt (k + 1) r = true := by
  rw [eval] at h
  obtain ⟨a, -, h⟩ := bind_eq_ok.mp h
  obtain ⟨set, -, h⟩ := bind_eq_ok.mp h
  obtain ⟨uri, -, h⟩ := bind_eq_ok.mp h
  obtain ⟨found, hfound, h⟩ := bind_eq_ok.mp h
  obtain rfl : Place.inOrder found.flatten = ps := by simpa using h
  obtain ⟨qs, hqs, hq⟩ := List.mem_flatten.mp (Place.mem_inOrder.mp hp)
  obtain ⟨q, -, hnarrow⟩ := exists_of_mapM_eq_ok hfound qs hqs
  rw [narrow] at hnarrow
  obtain ⟨kept, hkept, hrest⟩ := bind_eq_ok.mp hnarrow
  rw [narrow] at hrest
  obtain rfl := Except.ok.inj hrest
  rw [keep] at hkept
  obtain ⟨k, r, hr⟩ := of_mem_keepFrom hkept hq
  exact ⟨k, _, r, hr⟩

/-! ### Selections -/

/-- An expression selects the document and the pieces at the addresses that
fulfil `P`. -/
def Selects (env : Env) (e : Expr) (f : Frame) (P : Address → Prop) : Prop :=
  ∃ ps, eval env e f = .ok (.nodes ps) ∧ Place.Sorted ps ∧ ∀ p, p ∈ ps ↔ ∃ a, P a ∧ p = .node a

lemma Selects.congr {e : Expr} {f : Frame} {P Q : Address → Prop} (h : Selects env e f P)
    (hPQ : ∀ a, P a ↔ Q a) : Selects env e f Q := by
  obtain ⟨ps, he, hs, hm⟩ := h
  exact ⟨ps, he, hs, fun p => by simp [hm, hPQ]⟩

lemma selects_root (f : Frame) : Selects env .root f (· = []) :=
  ⟨[.node []], by simp [eval], by simp [Place.Sorted], by simp⟩

lemma selects_here (f : Frame) {a : Address} (h : f.place = .node a) :
    Selects env .here f (· = a) :=
  ⟨[.node a], by simp [eval, h], by simp [Place.Sorted], by simp⟩

/-- A step selects what it leads to from each address. -/
lemma Selects.step {e : Expr} {f : Frame} {P : Address → Prop} (h : Selects env e f P)
    {axis : Axis} {test : NodeTest} {uri : Option Text} (hu : env.testUri test = .ok uri)
    {es : List Expr} {R : Address → Address → Prop}
    (hR : ∀ a, P a → ∃ qs, narrow env es (env.onAxis axis test uri (.node a)) = .ok qs ∧
      ∀ p, p ∈ qs ↔ ∃ b, R a b ∧ p = .node b) :
    Selects env (.step e axis test es) f fun b => ∃ a, P a ∧ R a b := by
  obtain ⟨ps, he, -, hm⟩ := h
  have hlead : ∀ p, ∃ qs, p ∈ ps → narrow env es (env.onAxis axis test uri p) = .ok qs ∧
      ∀ q, q ∈ qs ↔ ∃ a b, p = .node a ∧ R a b ∧ q = .node b := by
    intro p
    by_cases hp : p ∈ ps
    · obtain ⟨a, ha, rfl⟩ := (hm p).mp hp
      obtain ⟨qs, hqs, hq⟩ := hR a ha
      exact ⟨qs, fun _ => ⟨hqs, fun q => by simp [hq]⟩⟩
    · exact ⟨[], fun h => absurd h hp⟩
  choose g hg using hlead
  have hmap := mapM_eq_ok (l := ps) fun p hp => (hg p hp).1
  refine ⟨Place.inOrder (ps.map g).flatten, ?_, Place.sorted_inOrder _, fun q => ?_⟩
  · simp [eval, he, Result.toNodes, hu, hmap]
  · simp only [Place.mem_inOrder, List.mem_flatten, List.mem_map]
    constructor
    · rintro ⟨_, ⟨p, hp, rfl⟩, hq⟩
      obtain ⟨a, b, rfl, hab, rfl⟩ := ((hg p hp).2 q).mp hq
      obtain ⟨a', ha', h⟩ := (hm _).mp hp
      obtain rfl : a = a' := by simpa using h
      exact ⟨b, ⟨a, ha', hab⟩, rfl⟩
    · rintro ⟨b, ⟨a, ha, hab⟩, rfl⟩
      have hp : Place.node a ∈ ps := (hm _).mpr ⟨a, ha, rfl⟩
      exact ⟨g (.node a), ⟨_, hp, rfl⟩, ((hg _ hp).2 _).mpr ⟨a, b, rfl, hab, rfl⟩⟩

/-! ### Steps to children -/

variable {test : NodeTest} {uri : Option Text}

lemma accepts_piece {axis : Axis} (h1 : axis ≠ .attribute) (h2 : axis ≠ .namespaces) (m : Markup) :
    test.accepts axis uri (.piece m) = m.passes test uri := by
  have hk : isMainKind axis (.piece m) = isMainKind .child (.piece m) := by
    simp only [isMainKind, bne_iff_ne.mpr h1, bne_iff_ne.mpr h2]
    rfl
  cases test with
  | any p => cases p <;> simp only [Markup.passes, NodeTest.accepts, hk]
  | name p base => simp only [Markup.passes, NodeTest.accepts, hk]
  | _ => rfl

lemma onAxis_child (a : Address) :
    env.onAxis .child test uri (.node a) =
      (((env.document.childrenAt a).zipIdx).filter fun x => x.1.passes test uri).map
        fun x => .node (x.2 :: a) := by
  simp only [Env.onAxis, Axis.sites, Axis.sitesFrom, childSites, List.filter_map, List.map_map]
  rfl

/-- The position of a child among those that pass the test. -/
lemma getElem?_onAxis_child {a : Address} {j : ℕ} {p : Place} :
    (env.onAxis .child test uri (.node a))[j]? = some p ↔
      ∃ i m, env.document.get? (i :: a) = some m ∧ m.passes test uri ∧
        j = env.document.earlier (·.passes test uri) (i :: a) ∧ p = .node (i :: a) := by
  rw [onAxis_child, List.getElem?_map, Option.map_eq_some_iff]
  simp only [getElem?_filter_zipIdx, Prod.exists]
  constructor
  · rintro ⟨m, i, ⟨i', hm, rfl, hp, hj⟩, rfl⟩
    exact ⟨i', m, hm, hp, hj, by simp⟩
  · rintro ⟨i, m, hm, hp, hj, rfl⟩
    exact ⟨m, i, ⟨i, hm, by simp, hp, hj⟩, rfl⟩

/-- Does a piece stand at an address that passes a test? -/
def passesAt (d : Document) (test : NodeTest) (uri : Option Text) (b : Address) : Bool :=
  (d.get? b).any (·.passes test uri)

lemma passesAt_iff {d : Document} {b : Address} :
    passesAt d test uri b ↔ ∃ m, d.get? b = some m ∧ m.passes test uri := by
  simp [passesAt, Option.any_eq_true]

/-- The position of an address among its siblings that pass a test. -/
def positionAt (d : Document) (test : NodeTest) (uri : Option Text) (b : Address) : ℕ :=
  d.earlier (·.passes test uri) b + 1

/-- The place of an address among its siblings that fulfil `M`. -/
def placeAmong (M : Address → Bool) (b : Address) : ℕ :=
  (match b with
    | [] => 0
    | i :: a => (List.range i).countP fun j => M (j :: a)) + 1

/-- Among fewer siblings the place is no later one. -/
lemma placeAmong_mono {M N : Address → Bool} (h : ∀ b, M b → N b) (b : Address) :
    placeAmong M b ≤ placeAmong N b := by
  cases b with
  | nil => exact le_rfl
  | cons i a => exact Nat.succ_le_succ (List.countP_mono_left fun j _ => h (j :: a))

/-- Items in front of a position, counted by their positions. -/
lemma countP_range {α : Type*} (l : List α) (p : α → Bool) (i : ℕ) :
    (List.range i).countP (fun j => l[j]?.any p) = (l.take i).countP p := by
  induction i with
  | zero => rfl
  | succ i ih =>
      rw [List.range_succ, List.countP_append, ih, List.take_add_one, List.countP_append]
      cases h : l[i]? <;> simp [h]

/-- Among the siblings that pass a test the place is the position. -/
lemma placeAmong_passesAt (d : Document) (test : NodeTest) (uri : Option Text) (b : Address) :
    placeAmong (passesAt d test uri) b = positionAt d test uri b := by
  cases b with
  | nil => rfl
  | cons i a =>
      exact congrArg (· + 1) (countP_range (d.childrenAt a) (·.passes test uri) i)

/-- Predicates keep of the children that pass a test those that `M` matches. -/
structure Keeps (env : Env) (test : NodeTest) (uri : Option Text) (es : List Expr)
    (M : Address → Bool) : Prop where
  passes : ∀ b, M b → passesAt env.document test uri b
  narrows : ∀ a, narrow env es (env.onAxis .child test uri (.node a)) =
    .ok ((env.onAxis .child test uri (.node a)).filter (M ·.address))

/-- The children that pass a test. -/
lemma mem_onAxis_child {a : Address} {p : Place} : p ∈ env.onAxis .child test uri (.node a) ↔
    ∃ b, (∃ i, b = i :: a ∧ passesAt env.document test uri b) ∧ p = .node b := by
  rw [List.mem_iff_getElem?]
  simp only [getElem?_onAxis_child, passesAt_iff]
  constructor
  · rintro ⟨_, i, m, hm, hp, -, rfl⟩
    exact ⟨i :: a, ⟨i, rfl, m, hm, hp⟩, rfl⟩
  · rintro ⟨_, ⟨i, rfl, m, hm, hp⟩, rfl⟩
    exact ⟨_, i, m, hm, hp, rfl, rfl⟩

/-- The children that are kept, by their numbers. -/
lemma filter_onAxis_child {M : Address → Bool} (hM : ∀ b, M b → passesAt env.document test uri b)
    (a : Address) : (env.onAxis .child test uri (.node a)).filter (M ·.address) =
      ((List.range (env.document.childrenAt a).length).filter fun i => M (i :: a)).map
        fun i => .node (i :: a) := by
  have hnumbers : ∀ x ∈ (env.document.childrenAt a).zipIdx,
      (M (x.2 :: a) && x.1.passes test uri) = M (x.2 :: a) := by
    intro x hx
    rw [Bool.and_eq_left_iff_imp]
    intro h
    obtain ⟨m, hm, hp⟩ := passesAt_iff.mp (hM _ h)
    rw [Document.get?_cons, List.mem_zipIdx_iff_getElem?.mp hx] at hm
    rwa [Option.some.inj hm]
  rw [onAxis_child, List.filter_map, List.filter_filter, List.range_eq_range',
    ← List.zipIdx_map_snd 0 (env.document.childrenAt a), List.filter_map, List.map_map]
  exact congrArg (List.map _) (List.filter_congr hnumbers)

/-- The position among the children that are kept. -/
lemma eq_placeAmong {M : Address → Bool} (hM : ∀ b, M b → passesAt env.document test uri b)
    {a : Address} {j : ℕ} {p : Place}
    (h : ((env.onAxis .child test uri (.node a)).filter (M ·.address))[j]? = some p) :
    ∃ b, M b ∧ p = .node b ∧ j + 1 = placeAmong M b := by
  rw [filter_onAxis_child hM, List.getElem?_map, Option.map_eq_some_iff] at h
  obtain ⟨i, hi, rfl⟩ := h
  set l := List.range (env.document.childrenAt a).length with hl
  have hpair : ((l.zipIdx.filter fun x => M (x.1 :: a)).map Prod.fst)[j]? = some i := by
    rwa [← Function.comp_def (fun i => M (i :: a)), ← List.filter_map, List.zipIdx_map_fst]
  rw [List.getElem?_map, Option.map_eq_some_iff] at hpair
  obtain ⟨x, hx, rfl⟩ := hpair
  obtain ⟨k, hk, -, hMx, rfl⟩ := (getElem?_filter_zipIdx (p := fun i => M (i :: a))).mp hx
  obtain ⟨hlt, hkx⟩ := List.getElem?_eq_some_iff.mp hk
  rw [hl, List.length_range] at hlt
  obtain rfl : k = x.1 := by simpa [hl] using hkx
  refine ⟨_, hMx, rfl, ?_⟩
  rw [hl, List.take_range, Nat.min_eq_left hlt.le]
  rfl

/-- Without predicates all of them are kept. -/
lemma keeps_nil (env : Env) (test : NodeTest) (uri : Option Text) :
    Keeps env test uri [] (passesAt env.document test uri) where
  passes _ h := h
  narrows a := by
    rw [narrow, List.filter_eq_self.mpr fun p hp => ?_]
    obtain ⟨_, ⟨i, rfl, hpass⟩, rfl⟩ := mem_onAxis_child.mp hp
    exact hpass

/-- The last predicate is applied to what the ones before it have left. -/
lemma narrow_append (es : List Expr) (e : Expr) (ps : List Place) :
    narrow env (es ++ [e]) ps = narrow env es ps >>= keep (eval env e) := by
  induction es generalizing ps with
  | nil =>
      change (keep (eval env e) ps >>= fun qs => .ok qs) = keep (eval env e) ps
      cases keep (eval env e) ps <;> rfl
  | cons e' es ih =>
      rw [List.cons_append, narrow, narrow]
      cases keep (eval env e') ps with
      | error x => rfl
      | ok qs => exact ih qs

/-- **A further predicate** keeps the children where it holds, each tested at its place among
those that are left. -/
theorem Keeps.append {es : List Expr} {c : Expr} {M H : Address → Bool}
    (h : Keeps env test uri es M) (hc : ∀ b, M b → ∀ size, ∃ r,
      eval env c ⟨.node b, some (placeAmong M b), some size⟩ = .ok r ∧
        holdsAt (placeAmong M b) r = H b) :
    Keeps env test uri (es ++ [c]) fun b => M b && H b where
  passes b hb := h.passes b (Bool.and_eq_true_iff.mp hb).1
  narrows a := by
    set ps := (env.onAxis .child test uri (.node a)).filter (M ·.address) with hps
    have hkeep : keepFrom (eval env c) ps.length 0 ps = _ :=
        keepFrom_eq (Q := fun p _ => H p.address) fun x hx => by
      obtain ⟨b, hb, hx', hplace⟩ :=
        eq_placeAmong h.passes (List.mem_zipIdx_iff_getElem?.mp hx)
      have := hc b hb ps.length
      rw [hx', hplace]
      exact this
    rw [narrow_append, h.narrows, ← hps, ok_bind, keep, hkeep,
      ← Function.comp_def (fun p : Place => H p.address), ← List.filter_map, List.zipIdx_map_fst,
      hps, List.filter_filter]
    simp only [Bool.and_comm]

/-- A predicate alone keeps the children where it holds, each tested at its position among those
that pass. -/
lemma keeps_singleton {c : Expr} {H : Address → Bool}
    (hc : ∀ b, passesAt env.document test uri b → ∀ size, ∃ r,
      eval env c ⟨.node b, some (positionAt env.document test uri b), some size⟩ = .ok r ∧
        holdsAt (positionAt env.document test uri b) r = H b) :
    Keeps env test uri [c] fun b => passesAt env.document test uri b && H b :=
  (keeps_nil env test uri).append fun b hb size => by
    rw [placeAmong_passesAt]
    exact hc b hb size

/-- A step to the children that predicates keep. -/
theorem Selects.child_keeps {e : Expr} {es : List Expr} {f : Frame} {P : Address → Prop}
    {M : Address → Bool} (h : Selects env e f P) (hu : env.testUri test = .ok uri)
    (hk : Keeps env test uri es M) :
    Selects env (.step e .child test es) f fun b => ∃ a, P a ∧ ∃ i, b = i :: a ∧ M b := by
  refine h.step hu fun a _ => ⟨_, hk.narrows a, fun p => ?_⟩
  rw [List.mem_filter, mem_onAxis_child]
  constructor
  · rintro ⟨⟨_, ⟨i, rfl, -⟩, rfl⟩, hM⟩
    exact ⟨_, ⟨i, rfl, hM⟩, rfl⟩
  · rintro ⟨_, ⟨i, rfl, hM⟩, rfl⟩
    exact ⟨⟨_, ⟨i, rfl, hk.passes _ hM⟩, rfl⟩, hM⟩

/-- A step to the children that pass a test. -/
theorem Selects.child {e : Expr} {f : Frame} {P : Address → Prop} (h : Selects env e f P)
    (hu : env.testUri test = .ok uri) :
    Selects env (.step e .child test []) f fun b =>
      ∃ a, P a ∧ ∃ i, b = i :: a ∧ passesAt env.document test uri b :=
  h.child_keeps hu (keeps_nil env test uri)

/-- A step to the children that pass a test and fulfil a predicate. Each is
tested at its position among those that pass. -/
theorem Selects.child_where {e c : Expr} {f : Frame} {P : Address → Prop} {H : Address → Bool}
    (h : Selects env e f P) (hu : env.testUri test = .ok uri)
    (hc : ∀ b, passesAt env.document test uri b → ∀ size, ∃ r,
      eval env c ⟨.node b, some (positionAt env.document test uri b), some size⟩ = .ok r ∧
        holdsAt (positionAt env.document test uri b) r = H b) :
    Selects env (.step e .child test [c]) f fun b =>
      ∃ a, P a ∧ ∃ i, b = i :: a ∧ passesAt env.document test uri b ∧ H b :=
  (h.child_keeps hu (keeps_singleton hc)).congr fun b => by simp only [Bool.and_eq_true]

/-! ### Steps to everything inside -/

lemma itemAt?_node (d : Document) {b : Address} (hb : b ≠ []) :
    d.itemAt? (.node b) = (d.get? b).map .piece := by
  cases b with
  | nil => exact absurd rfl hb
  | cons i b => rfl

/-- What stands at an address and below it. -/
lemma mem_onAxis_descendantOrSelf {a : Address} {p : Place} :
    p ∈ env.onAxis .descendantOrSelf test uri (.node a) ↔
      ∃ way item, p = .node (way ++ a) ∧ env.document.itemAt? p = some item ∧
        test.accepts .descendantOrSelf uri item := by
  simp only [Env.onAxis, Axis.sites, Axis.sitesFrom, List.filter_append, List.map_append,
    List.mem_append, List.mem_map, List.mem_filter]
  constructor
  · rintro (⟨site, ⟨hs, ht⟩, rfl⟩ | ⟨site, ⟨⟨x, hx, rfl⟩, ht⟩, rfl⟩)
    · simp only [sitesAt, List.filterMap_cons, List.filterMap_nil] at hs
      cases hi : env.document.itemAt? (.node a) with
      | none => simp [hi] at hs
      | some item =>
          obtain rfl : site = ⟨.node a, item⟩ := by simpa [hi] using hs
          exact ⟨[], item, rfl, hi, ht⟩
    · obtain ⟨way, hw, hp, hg⟩ := Document.mem_piecesBelow.mp hx
      have hne : x.1 ≠ [] := by simp [hp, hw]
      exact ⟨way, .piece x.2, by simp [Site.ofPiece, hp], by
        simp [Site.ofPiece, itemAt?_node _ hne, hg], ht⟩
  · rintro ⟨way, item, rfl, hi, ht⟩
    cases way with
    | nil =>
        rw [List.nil_append] at hi
        exact .inl ⟨⟨.node a, item⟩, ⟨by simp [sitesAt, hi], ht⟩, rfl⟩
    | cons i way =>
        rw [itemAt?_node _ (by simp), Option.map_eq_some_iff] at hi
        obtain ⟨m, hm, rfl⟩ := hi
        refine .inr ⟨Site.ofPiece (i :: way ++ a, m), ⟨⟨_, ?_, rfl⟩, ht⟩, rfl⟩
        exact Document.mem_piecesBelow.mpr ⟨i :: way, by simp, rfl, hm⟩

/-- Everything inside, the starting points included. -/
theorem Selects.inside {e : Expr} {f : Frame} {P : Address → Prop} (h : Selects env e f P) :
    Selects env e.inside f fun b =>
      ∃ a, P a ∧ ∃ way, b = way ++ a ∧ (env.document.itemAt? (.node b)).isSome := by
  refine h.step (rfl : env.testUri .node = .ok none) fun a _ => ⟨_, rfl, fun p => ?_⟩
  rw [mem_onAxis_descendantOrSelf]
  constructor
  · rintro ⟨way, item, rfl, hi, -⟩
    exact ⟨way ++ a, ⟨way, rfl, by simp [hi]⟩, rfl⟩
  · rintro ⟨_, ⟨way, rfl, hi⟩, rfl⟩
    obtain ⟨item, hi⟩ := Option.isSome_iff_exists.mp hi
    exact ⟨way, item, rfl, hi, rfl⟩

/-- Something stands at every address on the way to a piece. -/
lemma isSome_itemAt?_of_get? {d : Document} {i : ℕ} {a : Address} {m : Markup}
    (h : d.get? (i :: a) = some m) : (d.itemAt? (.node a)).isSome := by
  cases a with
  | nil => rfl
  | cons j a =>
      obtain ⟨e, he, -⟩ := Document.isElement_of_get? (by simp) h
      simp [itemAt?_node, he]

/-- What lies below the addresses that fulfil `P`. -/
lemma below_inside {d : Document} {P Q : Address → Prop}
    (hQ : ∀ b, Q b → passesAt d test uri b) (b : Address) :
    (∃ a, (∃ c, P c ∧ ∃ way, a = way ++ c ∧ (d.itemAt? (.node a)).isSome) ∧
        ∃ i, b = i :: a ∧ Q b) ↔
      ∃ a, P a ∧ ∃ way, way ≠ [] ∧ b = way ++ a ∧ Q b := by
  constructor
  · rintro ⟨a, ⟨c, hc, way, rfl, -⟩, i, rfl, hq⟩
    exact ⟨c, hc, i :: way, by simp, rfl, hq⟩
  · rintro ⟨a, ha, way, hw, rfl, hq⟩
    obtain ⟨i, way, rfl⟩ := List.exists_cons_of_ne_nil hw
    obtain ⟨m, hm, -⟩ := passesAt_iff.mp (hQ _ hq)
    exact ⟨way ++ a, ⟨a, ha, way, rfl, isSome_itemAt?_of_get? hm⟩, i, rfl, hq⟩

/-- A step to everything below that predicates keep of its siblings. -/
theorem Selects.below_keeps {e : Expr} {es : List Expr} {f : Frame} {P : Address → Prop}
    {M : Address → Bool} (h : Selects env e f P) (hu : env.testUri test = .ok uri)
    (hk : Keeps env test uri es M) :
    Selects env (.step e.inside .child test es) f fun b =>
      ∃ a, P a ∧ ∃ way, way ≠ [] ∧ b = way ++ a ∧ M b :=
  (h.inside.child_keeps hu hk).congr (below_inside hk.passes)

/-- A step to everything below that passes a test and fulfils a predicate. -/
theorem Selects.below_where {e c : Expr} {f : Frame} {P : Address → Prop} {H : Address → Bool}
    (h : Selects env e f P) (hu : env.testUri test = .ok uri)
    (hc : ∀ b, passesAt env.document test uri b → ∀ size, ∃ r,
      eval env c ⟨.node b, some (positionAt env.document test uri b), some size⟩ = .ok r ∧
        holdsAt (positionAt env.document test uri b) r = H b) :
    Selects env (.step e.inside .child test [c]) f fun b =>
      ∃ a, P a ∧ ∃ way, way ≠ [] ∧ b = way ++ a ∧ passesAt env.document test uri b ∧ H b :=
  (h.below_keeps hu (keeps_singleton hc)).congr fun b => by simp only [Bool.and_eq_true]

/-- Of what is inside, the document itself passes no test for elements. -/
lemma mem_onAxis_inside (hd : test.accepts .descendantOrSelf uri .document = false)
    {a : Address} {p : Place} :
    p ∈ env.onAxis .descendantOrSelf test uri (.node a) ↔
      ∃ way, p = .node (way ++ a) ∧ passesAt env.document test uri (way ++ a) := by
  rw [mem_onAxis_descendantOrSelf]
  constructor
  · rintro ⟨way, item, rfl, hi, ht⟩
    refine ⟨way, rfl, passesAt_iff.mpr ?_⟩
    cases hb : way ++ a with
    | nil =>
        obtain rfl : Document.Item.document = item := by simpa [hb, Document.itemAt?] using hi
        simp [hd] at ht
    | cons i b =>
        rw [itemAt?_node _ (by simp [hb]), Option.map_eq_some_iff] at hi
        obtain ⟨m, hm, rfl⟩ := hi
        exact ⟨m, by rw [← hb, hm], by rwa [accepts_piece (by simp) (by simp)] at ht⟩
  · rintro ⟨way, rfl, hp⟩
    obtain ⟨m, hm, hp⟩ := passesAt_iff.mp hp
    have hne : way ++ a ≠ [] := by
      rintro hnil
      simp [hnil] at hm
    exact ⟨way, .piece m, rfl, by simp [itemAt?_node _ hne, hm],
      by rwa [accepts_piece (by simp) (by simp)]⟩

/-- A step to everything inside, the starting points included, that passes a
test for elements. -/
theorem Selects.within {e : Expr} {f : Frame} {P : Address → Prop} (h : Selects env e f P)
    (hu : env.testUri test = .ok uri)
    (hd : test.accepts .descendantOrSelf uri .document = false) :
    Selects env (.step e .descendantOrSelf test []) f fun b =>
      ∃ a, P a ∧ ∃ way, b = way ++ a ∧ passesAt env.document test uri b := by
  refine h.step hu fun a ha => ⟨_, rfl, fun p => ?_⟩
  rw [mem_onAxis_inside hd]
  constructor
  · rintro ⟨way, rfl, hp⟩
    exact ⟨way ++ a, ⟨way, rfl, hp⟩, rfl⟩
  · rintro ⟨_, ⟨way, rfl, hp⟩, rfl⟩
    exact ⟨way, rfl, hp⟩

/-- A step to everything inside, the starting points included, that passes a
test for elements and fulfils a predicate at whatever position. -/
theorem Selects.within_where {e c : Expr} {f : Frame} {P : Address → Prop} {H : Address → Bool}
    (h : Selects env e f P) (hu : env.testUri test = .ok uri)
    (hd : test.accepts .descendantOrSelf uri .document = false)
    (hc : ∀ b, passesAt env.document test uri b → ∀ k size, ∃ r,
      eval env c ⟨.node b, some (k + 1), some size⟩ = .ok r ∧ holdsAt (k + 1) r = H b) :
    Selects env (.step e .descendantOrSelf test [c]) f fun b =>
      ∃ a, P a ∧ ∃ way, b = way ++ a ∧ passesAt env.document test uri b ∧ H b := by
  refine h.step hu fun a ha =>
    ⟨_, narrow_singleton (Q := fun p _ => H p.address) fun x hx => ?_, fun p => ?_⟩
  · obtain ⟨way, hx', hp⟩ := (mem_onAxis_inside hd).mp (List.fst_mem_of_mem_zipIdx hx)
    have := hc _ hp x.2 (env.onAxis .descendantOrSelf test uri (.node a)).length
    rw [hx']
    exact this
  · rw [← Function.comp_def (fun p : Place => H p.address), ← List.filter_map,
      List.zipIdx_map_fst, List.mem_filter, mem_onAxis_inside hd]
    constructor
    · rintro ⟨⟨way, rfl, hp⟩, hH⟩
      exact ⟨way ++ a, ⟨way, rfl, hp, hH⟩, rfl⟩
    · rintro ⟨_, ⟨way, rfl, hp, hH⟩, rfl⟩
      exact ⟨⟨way, rfl, hp⟩, hH⟩

end XPath

end Locator
