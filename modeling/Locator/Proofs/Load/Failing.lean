/-
How loading fails

* `Slip`: what a request asks for that is told as no failure to load: a path that no file can
  have, a file whose bytes are no text, and an address that cannot be taken apart;
* `Origin.of_eq_error`, `Origin.fetch_eq_error`, `readHtml_eq_error`: how each step of loading
  fails;
* `loads_or_slips`: **loading** gives a document, fails as such, or slips.
-/
import Locator.Load.Basic
import Locator.Proofs.Outcome

namespace Locator

variable {w : World} {r : Request} {e : Failure} {s path url : Text}

/-- The host of an address, with its surroundings. -/
def Url.hostOf (s : Text) : Text := Url.host (Url.cutScheme (Url.tidy s)).2

/-- **What slips through**: the failures of loading that are not told as such. A file is asked
for by a path with a zero character, or by one whose bytes are not those of a text; or, where no
file is asked for, a page at an address whose host cannot be told from what is around it. -/
inductive Slip (w : World) (r : Request) : Failure → Prop
  | unnamed {path : Text} (hfile : r.file = some path) (hzero : '\x00' ∈ path) :
      Slip w r .unnamedFile
  | undecodable {path : Text} {bytes : ByteArray} (hfile : r.file = some path) (hne : path ≠ [])
      (hzero : '\x00' ∉ path) (hread : w.read (shownPath path) = .ok bytes)
      (hbytes : ¬ bytes.IsValidUTF8) : Slip w r .undecodable
  | malformed {url : Text} (hfile : r.file.getD [] = []) (hurl : r.url = some url) (hne : url ≠ [])
      (hhost : Url.isSound (Url.hostOf url) = false) : Slip w r .malformedUrl

/-! ### Where a document is to be had -/

/-- An address has a scheme unless its host cannot be told. -/
lemma Url.schemeOf_eq (s : Text) : Url.schemeOf s =
    if Url.isSound (Url.hostOf s) then .ok (Url.cutScheme (Url.tidy s)).1
    else .error .malformedUrl := rfl

namespace Origin

/-- The failures to tell the origin of a page. -/
lemma ofUrl_eq_error {allowHttp : Bool} (h : ofUrl url allowHttp = .error e) :
    (∃ why, e = .load why) ∨ e = .malformedUrl ∧ Url.isSound (Url.hostOf url) = false := by
  rcases bind_eq_error.mp h with h | ⟨scheme, -, h⟩
  · rw [Url.schemeOf_eq] at h
    split_ifs at h with hsound
    exact .inr ⟨(Except.error.inj h).symm, by simpa using hsound⟩
  · split_ifs at h
    · exact .inl ⟨_, (Except.error.inj h).symm⟩
    · exact .inl ⟨_, (Except.error.inj h).symm⟩
    · simp at h

/-- An address that may be visited is that of a page. -/
lemma of_ofUrl {allowHttp : Bool} {o : Origin} (h : ofUrl url allowHttp = .ok o) :
    o = .page url := by
  obtain ⟨scheme, -, h⟩ := bind_eq_ok.mp h
  split_ifs at h
  exact (Except.ok.inj h).symm

/-- A file is asked for by a path that is not empty. -/
lemma of_file (hfile : r.file = some path) (hne : path ≠ []) : of r = .ok (.file path) := by
  obtain ⟨c, path, rfl⟩ := List.exists_cons_of_ne_nil hne
  rw [of, hfile]

/-- A page is asked for by an address that is not empty, where no file is. -/
lemma of_url (hfile : r.file.getD [] = []) (hurl : r.url = some url) (hne : url ≠ []) :
    of r = ofUrl url r.allowHttp := by
  obtain ⟨c, url, rfl⟩ := List.exists_cons_of_ne_nil hne
  cases hr : r.file with
  | none => rw [of, hr, hurl]
  | some path =>
      obtain rfl : path = [] := by simpa [hr] using hfile
      rw [of, hr, hurl]

/-- What a request means: a file, a page where no file is asked for, or the input. -/
lemma of_cases (r : Request) :
    (∃ path, r.file = some path ∧ path ≠ [] ∧ of r = .ok (.file path)) ∨
      (∃ url, r.file.getD [] = [] ∧ r.url = some url ∧ url ≠ [] ∧
        of r = ofUrl url r.allowHttp) ∨
      of r = .ok .input := by
  rw [of]
  split
  · next c path hfile => exact .inl ⟨c :: path, hfile, List.cons_ne_nil c path, rfl⟩
  · next c url hurl hnot =>
    have hfile : r.file.getD [] = [] := by
      cases hr : r.file with
      | none => rfl
      | some path =>
          cases path with
          | nil => rfl
          | cons c path => exact (hnot c path hr).elim
    exact .inr (.inl ⟨c :: url, hfile, hurl, List.cons_ne_nil c url, rfl⟩)
  · exact .inr (.inr rfl)

/-- The failures to tell an origin. -/
lemma of_eq_error (w : World) (h : of r = .error e) : (∃ why, e = .load why) ∨ Slip w r e := by
  rcases of_cases r with ⟨path, -, -, hof⟩ | ⟨url, hfile, hurl, hne, hof⟩ | hof
  · simp [hof] at h
  · rw [hof] at h
    refine (ofUrl_eq_error h).imp_right ?_
    rintro ⟨rfl, hhost⟩
    exact .malformed hfile hurl hne hhost
  · simp [hof] at h

/-- Where the origin is a file, it was asked for. -/
lemma of_eq_file (h : of r = .ok (.file path)) : r.file = some path ∧ path ≠ [] := by
  rcases of_cases r with ⟨path', hfile, hne, hof⟩ | ⟨url, -, -, -, hof⟩ | hof
  · obtain rfl : path' = path := by simpa [hof] using h
    exact ⟨hfile, hne⟩
  · exact absurd (of_ofUrl (hof ▸ h)) (by simp)
  · simp [hof] at h

/-! ### Texts -/

/-- The failures to read a file. -/
lemma fileText_eq_error (hfile : r.file = some path) (hne : path ≠ [])
    (h : fileText w path = .error e) : (∃ why, e = .load why) ∨ Slip w r e := by
  rw [fileText] at h
  split_ifs at h with hzero
  · obtain rfl := Except.error.inj h
    exact .inr (.unnamed hfile (by simpa using hzero))
  · dsimp only at h
    split at h
    · exact .inl ⟨_, (Except.error.inj h).symm⟩
    · next bytes hread =>
      rw [String.fromUTF8?] at h
      split_ifs at h with hbytes
      have he : Failure.undecodable = e := Except.error.inj h
      exact .inr (he ▸ .undecodable hfile hne (by simpa using hzero) hread hbytes)

/-- The failures to get the text at an origin. -/
lemma fetch_eq_error {o : Origin} (ho : of r = .ok o) (h : fetch w o = .error e) :
    (∃ why, e = .load why) ∨ Slip w r e := by
  cases o with
  | file path =>
      obtain ⟨hfile, hne⟩ := of_eq_file ho
      rcases bind_eq_error.mp h with h | ⟨html, -, h⟩
      · exact fileText_eq_error hfile hne h
      · simp at h
  | page url =>
      rcases bind_eq_error.mp h with h | ⟨page, -, h⟩
      · obtain ⟨why, -, rfl⟩ := mapError_eq_error.mp h
        exact .inl ⟨why, rfl⟩
      · simp at h
  | input =>
      rw [fetch] at h
      split_ifs at h
      exact .inl ⟨_, (Except.error.inj h).symm⟩

end Origin

/-- A text that makes no document fails to load. -/
lemma readHtml_eq_error {key : ℕ} (h : readHtml key s = .error e) : ∃ why, e = .load why := by
  rw [readHtml] at h
  split_ifs at h
  · exact ⟨_, (Except.error.inj h).symm⟩
  · exact ⟨_, (Except.error.inj h).symm⟩
  · dsimp only at h
    split_ifs at h
    · exact ⟨_, (Except.error.inj h).symm⟩
    · split at h
      · simp at h
      · exact ⟨_, (Except.error.inj h).symm⟩

/-! ### Loading -/

/-- Whatever slips through is what loading ends in. -/
lemma load_of_slip (h : Slip w r e) : load w r = .error e := by
  cases h with
  | @unnamed path hfile hzero =>
      have htext : Origin.fileText w path = .error .unnamedFile := by
        rw [Origin.fileText, if_pos (by simpa using hzero)]
      rw [load, Origin.of_file hfile (List.ne_nil_of_mem hzero), ok_bind, Origin.fetch, htext]
      rfl
  | @undecodable path bytes hfile hne hzero hread hbytes =>
      have htext : Origin.fileText w path = .error .undecodable := by
        rw [Origin.fileText, if_neg (by simpa using hzero)]
        simp only [hread, String.fromUTF8?, dif_neg hbytes]
      rw [load, Origin.of_file hfile hne, ok_bind, Origin.fetch, htext]
      rfl
  | @malformed url hfile hurl hne hhost =>
      have hsound : ¬ Url.isSound (Url.hostOf url) = true := by simp [hhost]
      rw [load, Origin.of_url hfile hurl hne, Origin.ofUrl, Url.schemeOf_eq, if_neg hsound]
      rfl

/-- A failure to load is told as such, or it is one that slips through. -/
lemma load_eq_error (h : load w r = .error e) : (∃ why, e = .load why) ∨ Slip w r e := by
  rcases bind_eq_error.mp h with h | ⟨origin, horigin, h⟩
  · exact Origin.of_eq_error w h
  rcases bind_eq_error.mp h with h | ⟨⟨html, source⟩, -, h⟩
  · exact Origin.fetch_eq_error horigin h
  rcases bind_eq_error.mp h with h | ⟨d, -, h⟩
  · exact .inl (readHtml_eq_error h)
  · simp at h

/-- **Loading** gives a document, or fails as such, or ends in one of the failures that slip
through; and wherever one of these is there, it ends in that. -/
theorem loads_or_slips (w : World) (r : Request) :
    ((∃ l, load w r = .ok l) ∨ (∃ why, load w r = .error (.load why)) ∨
        ∃ e, Slip w r e ∧ load w r = .error e) ∧
      ∀ e, Slip w r e → load w r = .error e := by
  refine ⟨?_, fun e => load_of_slip⟩
  cases h : load w r with
  | ok l => exact .inl ⟨l, rfl⟩
  | error e =>
      rcases load_eq_error h with ⟨why, rfl⟩ | hslip
      · exact .inr (.inl ⟨why, rfl⟩)
      · exact .inr (.inr ⟨e, hslip, rfl⟩)

/-- A file whose bytes are no text: `0xff` stands in the middle. -/
def latinPage : World :=
  { read := Files.read [(["page.html".toList], ⟨#[0x3c, 0x70, 0x3e, 0xff, 0x3c, 0x2f, 0x70, 0x3e]⟩)]
    render := fun _ => .error .noBrowser
    input := [] }

/-- Its failure is not told as one to load. -/
theorem load_latinPage :
    load latinPage { file := some "page.html".toList } = .error .undecodable := rfl

end Locator
