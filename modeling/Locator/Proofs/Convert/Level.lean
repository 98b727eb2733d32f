/-
Values with brackets

* `readCompound_closing`: no value that the converter reads holds a closing bracket;
* `length_compoundTextsFrom_lt`: an opening bracket in a value hides the combinators behind
  the compound;
* `readGroup_iff`, `groups_iff`: **the groups that are read from their texts** are those whose
  values hide nothing.
-/
import Locator.Proofs.Convert.List
import Locator.Proofs.Convert.States
import Locator.Proofs.Css.Canonical

namespace Locator.Css

open Text

variable {s t u whole body rest : Text} {c : Char} {test : Test} {gs : List Group} {g : Group}

/-! ### Closing brackets -/

lemma mem_of_mem_stripBy {p : Char → Bool} (h : c ∈ stripBy p s) : c ∈ s := by
  rw [stripBy, dropEnd_eq] at h
  exact (List.dropWhile_suffix p).subset ((List.rdropWhile_prefix p _).subset h)

/-- The value between quotation marks holds no other characters. -/
lemma mem_of_mem_unquote (h : c ∈ unquote s) : c ∈ s := by
  have hstrip : ∀ {d}, d ∈ strip s → d ∈ s := fun hd => mem_of_mem_stripBy hd
  rw [unquote] at h
  split at h
  · next d e r heq =>
      split_ifs at h
      · exact hstrip (heq ▸ List.mem_cons_of_mem d (List.mem_of_mem_dropLast h))
      · exact hstrip (mem_of_mem_stripBy h)
  · exact hstrip (mem_of_mem_stripBy h)

/-- What stands behind the sign of a comparison. -/
lemma comparison?_suffix {how : Comparison} (h : comparison? s = some (how, t)) : t <:+ s := by
  unfold comparison? at h
  split at h <;> simp only [Option.some.injEq, Prod.mk.injEq, reduceCtorEq] at h <;>
    · obtain ⟨-, rfl⟩ := h
      simp only [List.suffix_cons_iff, List.suffix_refl, or_true]

/-- A value holds no other characters than the text between the square brackets. -/
lemma mem_of_readAttribute (h : readAttribute body = .ok test) (hc : c ∈ test.value) : c ∈ body := by
  rw [readAttribute] at h
  split at h
  · simp at h
  · next name r hname =>
      have hr : ∀ {d}, d ∈ r.dropWhile isBlank → d ∈ body := fun hd => by
        obtain ⟨-, rfl, -⟩ := XPath.ident?_eq_some hname
        exact List.mem_append_right name ((List.dropWhile_suffix _).subset hd)
      split at h
      · obtain rfl := Except.ok.inj h
        simp [Test.value] at hc
      · next =>
          split at h
          · next how value hsign =>
              obtain rfl := Except.ok.inj h
              have hvalue := (List.dropWhile_suffix _).subset (mem_of_mem_unquote hc)
              exact hr ((comparison?_suffix hsign).subset hvalue)
          · simp at h

/-- No value that is read from a test holds a closing bracket. -/
lemma readTest_closing (h : readTest whole c s = .ok (test, rest)) : ']' ∉ test.value := by
  have hnone : ∀ {x y : Test × Text}, ']' ∉ x.1.value → (.ok x : Except Unsupported _) = .ok y →
      ']' ∉ y.1.value := fun hx heq => Except.ok.inj heq ▸ hx
  unfold readTest at h
  dsimp only at h
  by_cases hname : (c == '#' || c == '.') = true
  · rw [if_pos hname] at h
    split_ifs at h <;> exact hnone List.not_mem_nil h
  rw [if_neg hname] at h
  by_cases hbracket : (c == '[') = true
  · rw [if_pos hbracket] at h
    split at h
    · simp at h
    · next body r hcut =>
        cases hread : readAttribute (strip body) with
        | error e => simp [hread, Except.map] at h
        | ok t =>
            rw [hread] at h
            refine hnone (x := (t, r)) (fun hm => ?_) h
            exact (eq_of_cutAt? hcut).2 (mem_of_mem_stripBy (mem_of_readAttribute hread hm))
  rw [if_neg hbracket] at h
  split_ifs at h
  split at h
  · exact hnone List.not_mem_nil h
  · simp at h

lemma readTests_closing {fuel : ℕ} {ts : List Test} (h : readTests whole fuel s = .ok ts) :
    ∀ t ∈ ts, ']' ∉ t.value := by
  induction fuel generalizing s ts with
  | zero =>
      cases s <;>
        · obtain rfl := Except.ok.inj h
          simp
  | succ fuel ih =>
      cases s with
      | nil =>
          obtain rfl := Except.ok.inj h
          simp
      | cons c r =>
          rw [readTests] at h
          cases hfirst : readTest whole c r with
          | error e => simp [hfirst] at h
          | ok x =>
              cases hothers : readTests whole fuel x.2 with
              | error e => simp [hfirst, hothers] at h
              | ok others =>
                  simp only [hfirst, hothers, ok_bind, pure_eq_ok, Except.ok.injEq] at h
                  rw [← h, List.forall_mem_cons]
                  exact ⟨readTest_closing hfirst, ih hothers⟩

/-- **No value that the converter reads** holds a closing bracket. -/
theorem readCompound_closing {x : Compound} (h : readCompound s = .ok x) :
    ∀ t ∈ x.tests, ']' ∉ t.value := by
  rw [readCompound] at h
  cases htests : readTests s (readTag s).2.length (readTag s).2 with
  | error e => simp [htests] at h
  | ok ts =>
      simp only [htests, ok_bind, pure_eq_ok, Except.ok.injEq] at h
      rw [← h]
      exact readTests_closing htests

/-- The steps of a group that is read are as many as its texts, and no value of theirs holds
a closing bracket. -/
lemma readGroup_ok {steps : Chain} (h : readGroup s = .ok steps) :
    steps.length = (compoundTexts s).length ∧
      ∀ x ∈ steps, ∀ t ∈ x.compound.tests, ']' ∉ t.value := by
  have hall : ∀ {xs : List CompoundText} {steps : List Step},
      (xs.mapM fun x => do return (⟨x.combinator, ← readCompound x.text⟩ : Step)) =
        (.ok steps : Except Unsupported (List Step)) →
      steps.length = xs.length ∧ ∀ x ∈ steps, ∀ t ∈ x.compound.tests, ']' ∉ t.value := by
    intro xs
    induction xs with
    | nil =>
        intro steps h
        obtain rfl := Except.ok.inj h
        simp
    | cons x xs ih =>
        intro steps h
        rw [List.mapM_cons] at h
        obtain ⟨y, hy, h⟩ := bind_eq_ok.mp h
        obtain ⟨others, hothers, h⟩ := bind_eq_ok.mp h
        obtain ⟨z, hz, hy⟩ := bind_eq_ok.mp hy
        obtain ⟨hlen, hclosing⟩ := ih hothers
        rw [← Except.ok.inj h, ← Except.ok.inj hy, List.length_cons, List.length_cons, hlen,
          List.forall_mem_cons]
        exact ⟨rfl, readCompound_closing hz, hclosing⟩
  rw [readGroup] at h
  split at h
  · simp at h
  · exact hall h

/-! ### Opening brackets -/

lemma length_flush_le (pending : Combinator) (collected : Text) :
    (flush pending collected).length ≤ 1 := by
  rw [flush]
  split_ifs <;> simp

/-- No brackets stand between compounds. -/
lemma Combinator.Writes.brackets_not_mem {how : Combinator} (h : how.Writes s) :
    ∀ c ∈ s, c ≠ '[' ∧ c ≠ ']' := by
  have hblanks : ∀ {bs}, AreBlanks bs → ∀ c ∈ bs, c ≠ '[' ∧ c ≠ ']' := fun hb c hc =>
    ⟨ne_of_isCssSpace (hb c hc) rfl, ne_of_isCssSpace (hb c hc) rfl⟩
  cases h with
  | descendant hb _ => exact hblanks hb
  | child hb hb' =>
      rw [List.forall_mem_append, List.forall_mem_cons]
      exact ⟨hblanks hb, by decide, hblanks hb'⟩

/-- Combinators inside brackets are hidden. -/
lemma length_compoundTextsFrom_le {ss : List Step} (h : RestWrites Test.Quotes ss t)
    (hp : ∀ s ∈ ss, s.compound.isLegible = true ∧ ∀ t ∈ s.compound.tests, ']' ∉ t.value)
    (pending : Combinator) (depth : ℕ) (collected : Text) :
    (compoundTextsFrom pending (depth + 1) collected t).length ≤ 1 := by
  induction h generalizing depth collected with
  | nil => exact length_flush_le _ _
  | @cons s ss js cs t hj hc hs ih =>
      rw [List.forall_mem_cons] at hp
      have hplain := hj.brackets_not_mem
      rw [compoundTextsFrom_plain (fun c hc => ⟨(hplain c hc).1, (hplain c hc).2,
          fun hd => absurd hd (Nat.succ_ne_zero depth)⟩),
        compoundTextsFrom_compound hc hp.1.1 hp.1.2, Nat.add_right_comm depth 1]
      exact ih hp.2 _ _

/-- **An opening bracket in a value** hides the combinators behind the compound. -/
theorem length_compoundTextsFrom_lt {ss : List Step} (h : RestWrites Test.Quotes ss t)
    {x : Compound} (hu : x.Writes Test.Quotes u) (hp : ∀ y ∈ x :: ss.map Step.compound,
      y.isLegible = true ∧ ∀ t ∈ y.tests, ']' ∉ t.value)
    (ho : ∃ y ∈ (x :: ss.map Step.compound).dropLast, y.opens ≠ 0) (pending : Combinator) :
    (compoundTextsFrom pending 0 [] (u ++ t)).length < ss.length + 1 := by
  induction h generalizing x u pending with
  | nil => simp at ho
  | @cons s ss js cs t hj hc hs ih =>
      rw [List.forall_mem_cons] at hp
      have hfirst := compoundTextsFrom_compound (p := pending) (k := 0) (w := [])
        hu hp.1.1 hp.1.2 (js ++ (cs ++ t))
      rw [hfirst, List.append_nil, List.length_cons]
      by_cases hx : x.opens = 0
      · rw [List.map_cons, List.dropLast_cons_cons] at ho
        have hrest : ∃ y ∈ (s.compound :: ss.map Step.compound).dropLast, y.opens ≠ 0 := by
          simpa [hx] using ho
        rw [hx, compoundTextsFrom_join hj (hu.isTrim hp.1.1) (cs ++ t),
          List.length_cons]
        exact Nat.succ_lt_succ (ih hc hp.2 hrest s.combinator)
      · obtain ⟨k, hk⟩ := Nat.exists_eq_succ_of_ne_zero hx
        have hsteps : ∀ y ∈ s :: ss, y.compound.isLegible = true ∧
            ∀ t ∈ y.compound.tests, ']' ∉ t.value := fun y hy =>
          hp.2 y.compound (List.mem_map_of_mem hy)
        have hle := length_compoundTextsFrom_le (.cons hj hc hs) hsteps pending k u.reverse
        rw [Nat.zero_add, hk]
        exact Nat.lt_of_le_of_lt hle (by omega)

/-! ### Groups -/

/-- **A group is read from each of its texts** exactly if its values hide nothing. -/
theorem readGroup_iff (h : g.Writes Test.Quotes s) (hp : ∀ c ∈ g.compounds, c.isLegible = true) :
    readGroup s = .ok g.chain ↔ g.IsLevel := by
  refine ⟨fun hread => ?_, readGroup_eq h hp⟩
  obtain ⟨hlen, hsteps⟩ := readGroup_ok hread
  have hclosing : ∀ c ∈ g.compounds, ∀ t ∈ c.tests, ']' ∉ t.value := by
    rw [Group.compounds, List.forall_mem_cons, List.forall_mem_map]
    exact List.forall_mem_cons.mp hsteps
  refine ⟨hclosing, ?_⟩
  by_contra hopen
  obtain ⟨cs, t, hc, hs, rfl⟩ := h
  have ho : ∃ y ∈ g.compounds.dropLast, y.opens ≠ 0 := by
    simpa [Compound.opens_eq_zero] using hopen
  have hlt := length_compoundTextsFrom_lt hs hc (fun x hx => ⟨hp x hx, hclosing x hx⟩) ho
    .descendant
  rw [compoundTexts] at hlen
  rw [← hlen] at hlt
  exact lt_irrefl _ hlt

/-- **The groups of a list are always parted** as they are written; they are read exactly if
their values hide nothing, and then the path of the list is the union of theirs. -/
theorem groups_iff (h : ListWrites Test.Quotes gs t)
    (hp : ∀ g ∈ gs, ∀ c ∈ g.compounds, c.isLegible = true) :
    List.Forall₂ (Group.Writes Test.Quotes) gs (groups t) ∧
      ((groups t).map readGroup = gs.map (fun g => .ok g.chain) ↔ ∀ g ∈ gs, g.IsLevel) ∧
      ((∀ g ∈ gs, g.IsLevel) →
        toXPath (.text t) = .ok (join " | ".toList (gs.map fun g => g.chain.toXPath))) := by
  have hgroups := groups_eq h hp
  refine ⟨hgroups, ?_, fun hg => toXPath_eq h hp hg areBlanks_nil⟩
  generalize groups t = us at hgroups
  clear h
  induction hgroups with
  | nil => simp
  | cons hu _ ih =>
      rw [List.forall_mem_cons] at hp
      rw [List.map_cons, List.map_cons, List.cons_eq_cons, readGroup_iff hu hp.1, ih hp.2,
        List.forall_mem_cons]

/-- Groups with an opening bracket in a value of the last compound, and with commas, signs and
blanks in others. -/
def openedLast : List Group :=
  [⟨⟨['a'], [.compare ['b'] .equals "x, > y".toList]⟩,
    [⟨.child, ⟨['c'], [.compare ['d'] .contains "[ \x22".toList, .classToken ['e']]⟩⟩]⟩,
    ⟨⟨['f'], []⟩, []⟩]

/-- The text of groups with an opening bracket in a value of the last compound. -/
def openedLastText : Text := "a[b=\x22x, > y\x22] > c[d*='[ \x22'].e , f".toList

/-- An opening bracket in the last compound hides nothing. -/
theorem groups_openedLast :
    (ListWrites Test.Quotes openedLast openedLastText ∧
      ∀ g ∈ openedLast, ∀ c ∈ g.compounds, c.isLegible = true) ∧
    List.Forall₂ (Group.Writes Test.Quotes) openedLast (groups openedLastText) ∧
      ((groups openedLastText).map readGroup = openedLast.map (fun g => .ok g.chain) ↔
        ∀ g ∈ openedLast, g.IsLevel) ∧
      ((∀ g ∈ openedLast, g.IsLevel) → toXPath (.text openedLastText) =
        .ok (join " | ".toList (openedLast.map fun g => g.chain.toXPath))) ∧
      ∀ g ∈ openedLast, g.IsLevel := by
  have hfirst : Compound.Writes Test.Quotes ⟨['a'], [.compare ['b'] .equals "x, > y".toList]⟩
      "a[b=\x22x, > y\x22]".toList :=
    ⟨["[b=\x22x, > y\x22]".toList], .cons ⟨'"', rfl, by decide, rfl⟩ .nil, .inl rfl⟩
  have hlast : Compound.Writes Test.Quotes
      ⟨['c'], [.compare ['d'] .contains "[ \x22".toList, .classToken ['e']]⟩
      "c[d*='[ \x22'].e".toList :=
    ⟨["[d*='[ \x22']".toList, ".e".toList], .cons ⟨'\'', rfl, by decide, rfl⟩ (.cons rfl .nil),
      .inl rfl⟩
  have hblank : AreBlanks [' '] := areBlanks_singleton rfl
  have hrest := RestWrites.cons (s := ⟨.child, _⟩) (.child hblank hblank) hlast .nil
  have hgroup : Group.Writes Test.Quotes (openedLast.head (by decide))
      "a[b=\x22x, > y\x22] > c[d*='[ \x22'].e".toList := ⟨_, _, hfirst, hrest, rfl⟩
  have hsecond : Group.Writes Test.Quotes ⟨⟨['f'], []⟩, []⟩ ['f'] :=
    ⟨['f'], [], ⟨[], .nil, .inl rfl⟩, .nil, rfl⟩
  have hwrites : ListWrites Test.Quotes openedLast openedLastText :=
    .cons hgroup hblank hblank (.one hsecond areBlanks_nil)
  have hp : ∀ g ∈ openedLast, ∀ c ∈ g.compounds, c.isLegible = true := by decide
  obtain ⟨h1, h2, h3⟩ := groups_iff hwrites hp
  exact ⟨⟨hwrites, hp⟩, h1, h2, h3, by decide⟩

/-- A group with a closing bracket in a value. -/
def closedValue : List Group := [⟨⟨['a'], [.compare ['b'] .equals "x]y".toList]⟩, []⟩]

/-- A group with an opening bracket in a value of the first compound. -/
def openedFirst : List Group :=
  [⟨⟨['a'], [.compare ['b'] .equals "[".toList, .id ['c']]⟩, [⟨.child, ⟨['d'], []⟩⟩]⟩]

/-- **A closing bracket** in a value cuts its test, so that there is no path; an opening one in
front of a combinator hides it, so that the path asks for another identifier. -/
theorem toXPath_closedValue :
    ((ListWrites Test.Quotes closedValue "a[b=\x22x]y\x22]".toList ∧
      ∀ g ∈ closedValue, ∀ c ∈ g.compounds, c.isLegible = true) ∧
      ∃ e, toXPath (.text "a[b=\x22x]y\x22]".toList) = .error e) ∧
    (ListWrites Test.Quotes openedFirst "a[b=\x22[\x22]#c>d".toList ∧
      ∀ g ∈ openedFirst, ∀ c ∈ g.compounds, c.isLegible = true) ∧
      toXPath (.text "a[b=\x22[\x22]#c>d".toList) =
        .ok "//a[@b=\x22[\x22 and @id=\x22c>d\x22]".toList := by
  have hclosed : ListWrites Test.Quotes closedValue "a[b=\x22x]y\x22]".toList :=
    .one ⟨_, [], ⟨["[b=\x22x]y\x22]".toList], .cons ⟨'"', rfl, by decide, rfl⟩ .nil,
      .inl rfl⟩, .nil, (List.append_nil _).symm⟩ areBlanks_nil
  have hfirst : Compound.Writes Test.Quotes (openedFirst.head (by decide)).first
      "a[b=\x22[\x22]#c".toList :=
    ⟨["[b=\x22[\x22]".toList, "#c".toList], .cons ⟨'"', rfl, by decide, rfl⟩ (.cons rfl .nil),
      .inl rfl⟩
  have hchild : Compound.Writes Test.Quotes ⟨['d'], []⟩ ['d'] := ⟨[], .nil, .inl rfl⟩
  have hgroup : Group.Writes Test.Quotes (openedFirst.head (by decide))
      "a[b=\x22[\x22]#c>d".toList :=
    ⟨_, _, hfirst, .cons (.child areBlanks_nil areBlanks_nil) hchild .nil,
      rfl⟩
  have hopened : ListWrites Test.Quotes openedFirst "a[b=\x22[\x22]#c>d".toList :=
    .one hgroup areBlanks_nil
  exact ⟨⟨⟨hclosed, by decide⟩, _, rfl⟩, ⟨hopened, by decide⟩, rfl⟩

end Locator.Css
