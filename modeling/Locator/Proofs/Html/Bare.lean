/-
Names of the elements of a document that is read

* `Markup.Unbound`: no name in a piece has a prefix or is in a namespace, and nothing is
  bound to one;
* `Html.Builder.Unbound`: what has been built holds such pieces alone, and every token
  leaves it so (`Html.Builder.Unbound.add`);
* `Html.hasBareNames_of_readHtml`, `Html.exists_root_of_readHtml`: **a document that is
  read** has names without prefixes and namespaces, and a root element.
-/
import Locator.Html.Read
import Locator.Proofs.Generator.Below

namespace Locator

/-- No name in a piece has a prefix or is in a namespace, and nothing is bound to one. -/
inductive Markup.Unbound : Markup → Prop
  | element (base : Text) (as : List Attribute) {cs : List Markup} (h : ∀ c ∈ cs, c.Unbound) :
    Unbound (.element { base := base } [] as cs)
  | text (s : Text) : Unbound (.text s)
  | comment (s : Text) : Unbound (.comment s)
  | instruction (target data : Text) : Unbound (.instruction target data)

namespace Markup.Unbound

variable {m : Markup}

lemma isBare (h : m.Unbound) : m.isBare = true := by
  cases h <;> rfl

lemma of_mem_children (h : m.Unbound) {c : Markup} (hc : c ∈ m.children) : c.Unbound := by
  cases h with
  | element _ _ h => exact h c hc
  | _ => simp [children] at hc

/-- Texts that are joined leave the other pieces as they are. -/
lemma of_mem_joinTexts {ms : List Markup} (h : ∀ m ∈ ms, m.Unbound) :
    ∀ m ∈ joinTexts ms, m.Unbound := by
  induction ms with
  | nil => simp [joinTexts]
  | cons m ms ih =>
      rw [List.forall_mem_cons] at h
      have ih := ih h.2
      cases m with
      | text s =>
          rw [joinTexts]
          split
          · next t others heq =>
            rw [heq, List.forall_mem_cons] at ih
            exact List.forall_mem_cons.mpr ⟨.text _, ih.2⟩
          · split_ifs
            · exact ih
            · exact List.forall_mem_cons.mpr ⟨.text s, ih⟩
      | _ => exact List.forall_mem_cons.mpr ⟨h.1, ih⟩

end Markup.Unbound

/-- All pieces of a document are as those at its top. -/
lemma Document.unbound_of_get? {d : Document} (h : ∀ m ∈ d.content, m.Unbound) {a : Address}
    {m : Markup} (hm : d.get? a = some m) : m.Unbound := by
  induction a generalizing m with
  | nil => simp [get?] at hm
  | cons i a ih =>
      have hmem : m ∈ d.childrenAt a := List.mem_of_getElem? hm
      cases a with
      | nil => exact h m hmem
      | cons j a =>
          rw [childrenAt] at hmem
          split at hmem
          · next x hx => exact (ih hx).of_mem_children hmem
          · simp at hmem

namespace Html

open Markup

/-! ### Building -/

lemma Frame.unbound_toMarkup {f : Frame} (h : ∀ m ∈ f.held, m.Unbound) : f.toMarkup.Unbound :=
  .element _ _ (Unbound.of_mem_joinTexts fun m hm => h m (List.mem_reverse.mp hm))

namespace Builder

/-- No name in what has been built has a prefix or is in a namespace. -/
structure Unbound (b : Builder) : Prop where
  opened : ∀ f ∈ b.opened, ∀ m ∈ f.held, m.Unbound
  document : ∀ m ∈ b.document.held, m.Unbound

namespace Unbound

variable {b : Builder}

lemma hold (h : b.Unbound) {m : Markup} (hm : m.Unbound) : (b.hold m).Unbound := by
  have hheld : ∀ {ms : List Markup}, (∀ n ∈ ms, n.Unbound) → ∀ n ∈ m :: ms, n.Unbound :=
    fun hms => List.forall_mem_cons.mpr ⟨hm, hms⟩
  rw [Builder.hold]
  split
  · next f rest heq =>
    have hopened := heq ▸ h.opened
    rw [List.forall_mem_cons] at hopened
    exact ⟨List.forall_mem_cons.mpr ⟨hheld hopened.1, hopened.2⟩, h.document⟩
  · exact ⟨h.opened, hheld h.document⟩

lemma push (h : b.Unbound) (name : Text) (attributes : List (Text × Text)) :
    (b.push name attributes).Unbound :=
  ⟨List.forall_mem_cons.mpr ⟨by simp, h.opened⟩, h.document⟩

lemma pop (h : b.Unbound) : b.pop.Unbound := by
  rw [Builder.pop]
  split
  · next f rest heq =>
    have hopened := heq ▸ h.opened
    rw [List.forall_mem_cons] at hopened
    have hrest : Unbound { b with opened := rest } := ⟨hopened.2, h.document⟩
    exact hrest.hold (Frame.unbound_toMarkup hopened.1)
  · exact h

lemma popMany (h : b.Unbound) (n : ℕ) : (Builder.popMany n b).Unbound := by
  induction n generalizing b with
  | zero => exact h
  | succ n ih => exact ih h.pop

lemma ite {p : Prop} [Decidable p] (h : b.Unbound) {c : Builder} (hc : c.Unbound) :
    (if p then b else c).Unbound := by
  split_ifs
  exacts [h, hc]

lemma closeFor (h : b.Unbound) (name : Text) : (b.closeFor name).Unbound := h.popMany _

lemma impliedHead (h : b.Unbound) : b.impliedHead.Unbound := h.ite (h.push _ _)

lemma impliedBody (h : b.Unbound) : b.impliedBody.Unbound := h.ite (h.push _ _)

lemma implied (h : b.Unbound) (name : Text) : (b.implied name).Unbound := by
  have hopen : (if b.opened.isEmpty then b.push "html".toList [] else b).Unbound :=
    (h.push _ _).ite h
  exact h.ite (hopen.ite (hopen.impliedHead.ite (hopen.ite hopen.impliedBody)))

lemma start (h : b.Unbound) (name : Text) (attributes : List (Text × Text)) (closed : Bool) :
    (b.start name attributes closed).Unbound := by
  have hroom := (h.closeFor name).implied name
  have hpush := hroom.push name attributes
  have hskip : Unbound { (b.closeFor name).implied name with
      skipped := ((b.closeFor name).implied name).skipped + 1 } := ⟨hroom.opened, hroom.document⟩
  exact hskip.ite (hpush.pop.ite hpush)

lemma stop (h : b.Unbound) (name : Text) : (b.stop name).Unbound := by
  have hskip : Unbound { b with skipped := b.skipped - 1 } := ⟨h.opened, h.document⟩
  exact hskip.ite (h.popMany _)

lemma holdText (h : b.Unbound) (s : Text) : (b.holdText s).Unbound := h.ite (h.hold (.text s))

lemma text (h : b.Unbound) (s : Text) : (b.text s).Unbound := by
  have hfront := h.holdText (s.takeWhile isBlank)
  rw [Builder.text]
  refine ite ?_ (h.holdText s)
  dsimp only
  split
  · exact hfront
  · exact (((hfront.closeFor ['p']).ite hfront).implied ['p']).holdText _

/-- **What a token does** leaves names without prefixes and namespaces. -/
theorem add (h : b.Unbound) (t : Token) : (b.add t).Unbound := by
  cases t with
  | start name attributes closed => exact h.start name attributes closed
  | stop name => exact h.stop name
  | text s => exact h.text s
  | comment s => exact h.hold (.comment s)

lemma foldl_add (h : b.Unbound) (ts : List Token) : (ts.foldl Builder.add b).Unbound := by
  induction ts generalizing b with
  | nil => exact h
  | cons t ts ih => exact ih (h.add t)

lemma finish (h : b.Unbound) : ∀ m ∈ b.finish, m.Unbound :=
  fun m hm => (h.popMany b.opened.length).document m (List.mem_reverse.mp hm)

end Unbound

end Builder

/-- All pieces that a row of tokens makes have names without prefixes and namespaces. -/
theorem unbound_build (ts : List Token) : ∀ m ∈ build ts, m.Unbound := by
  have hstart : Builder.Unbound {} := ⟨by simp, by simp [Frame.document]⟩
  exact (hstart.foldl_add ts).finish

/-! ### Documents that are read -/

variable {key : ℕ} {s : Text} {d : Document}

/-- A document that is read is built of the tokens of its text, among them an element. -/
lemma of_readHtml (h : readHtml key s = .ok d) :
    d.content = build (tokens s) ∧ d.content.any isElement = true := by
  simp only [readHtml] at h
  split_ifs at h with _ _ hany
  cases hd : Document.ofContent? key (build (tokens s)) true with
  | none => simp [hd] at h
  | some e =>
      obtain rfl : e = d := by simpa [hd] using h
      rw [Document.ofContent?] at hd
      split_ifs at hd
      obtain rfl := Option.some.inj hd
      exact ⟨rfl, by simpa using hany⟩

/-- **The names of a document that is read** have no prefixes and are in no namespace. -/
theorem hasBareNames_of_readHtml (h : readHtml key s = .ok d) : d.HasBareNames := by
  intro p hp
  have htop : ∀ m ∈ d.content, m.Unbound := (of_readHtml h).1 ▸ unbound_build _
  exact (Document.unbound_of_get? htop (Document.mem_pieces.mp hp)).isBare

/-- **A document that is read** has a root element. -/
theorem exists_root_of_readHtml (h : readHtml key s = .ok d) : ∃ r, d.root? = some r := by
  have hany := (of_readHtml h).2
  rw [← List.findIdx?_isSome] at hany
  obtain ⟨i, hi⟩ := Option.isSome_iff_exists.mp hany
  exact ⟨⟨d, [i]⟩, by rw [Document.root?, Document.rootAddress?, Document.rootPosition?, hi]; rfl⟩

end Html

end Locator
