/-
Pages that come over secured lines

* `Request.visits`: the addresses that a request has rendered; `load_congr`: loading looks at no
  other pages;
* `Origin.ofUrl_eq_page_iff`: without leave for open lines an address has to be a secured one;
* `load_secured`: **without that leave** only a page at a secured address is asked for, and it is
  loaded as it is;
* `load_redirected`: the page may stand at an open address in the end.
-/
import Locator.Proofs.Load.Failing

namespace Locator

variable {w w' : World} {r : Request} {l : Loaded} {url : Text}

/-! ### Pages that are asked for -/

/-- The addresses of the pages that a request has rendered. -/
def Request.visits (r : Request) : List Text :=
  match Origin.of r with
  | .ok (.page url) => [url]
  | _ => []

/-- A request for the page at an address, without leave for open lines. -/
def Request.ofUrl (url : Text) : Request := { url := some url }

/-- The text at an origin depends on a page only if it is the origin. -/
lemma Origin.fetch_congr {o : Origin} (hread : w'.read = w.read) (hinput : w'.input = w.input)
    (hrender : ∀ url, o = .page url → w'.render url = w.render url) : o.fetch w' = o.fetch w := by
  cases o with
  | file path => rw [fetch, fetch, fileText, fileText, hread]
  | page url => rw [fetch, fetch, hrender url rfl]
  | input => rw [fetch, fetch, hinput]

/-- **Loading** looks at no other pages than those that are asked for. -/
theorem load_congr (hread : w'.read = w.read) (hinput : w'.input = w.input)
    (hrender : ∀ url ∈ r.visits, w'.render url = w.render url) : load w' r = load w r := by
  rw [load, load]
  cases ho : Origin.of r with
  | error e => rfl
  | ok o =>
      have hfetch : o.fetch w' = o.fetch w := Origin.fetch_congr hread hinput fun url hurl => by
        subst hurl
        exact hrender url (by rw [Request.visits, ho]; exact List.mem_singleton_self url)
      rw [ok_bind, ok_bind, hfetch]

/-! ### Secured addresses -/

namespace Origin

/-- Without leave for open lines the address of a page is a secured one. -/
lemma ofUrl_eq_page_iff :
    ofUrl url false = .ok (.page url) ↔ Url.schemeOf url = .ok "https".toList := by
  rw [ofUrl, bind_eq_ok]
  constructor
  · rintro ⟨scheme, hscheme, h⟩
    split_ifs at h with hknown hopen
    have hsecured : scheme = "https".toList := by simpa using hopen
    rw [hscheme, hsecured]
  · intro h
    exact ⟨_, h, rfl⟩

/-- The empty address asks for the input, any other one for a page if it may be visited. -/
lemma of_request (url : Text) :
    of (.ofUrl url) = if url = [] then .ok .input else ofUrl url false := by
  cases url <;> rfl

/-- The origins of documents without leave for open lines. -/
lemma of_request_eq_ok {o : Origin} (h : of (.ofUrl url) = .ok o) :
    (url = [] ∧ o = .input) ∨ (Url.schemeOf url = .ok "https".toList ∧ o = .page url) := by
  rw [of_request] at h
  split_ifs at h with hempty
  · exact .inl ⟨hempty, (Except.ok.inj h).symm⟩
  · obtain rfl := of_ofUrl h
    exact .inr ⟨ofUrl_eq_page_iff.mp h, rfl⟩

/-- The page at a secured address is an origin. -/
lemma of_request_secured (h : Url.schemeOf url = .ok "https".toList) :
    of (.ofUrl url) = .ok (.page url) := by
  have hne : url ≠ [] := by
    rintro rfl
    have hempty : Url.schemeOf [] = .ok [] := rfl
    rw [hempty] at h
    exact absurd (Except.ok.inj h) (by decide)
  rw [of_request, if_neg hne, ofUrl_eq_page_iff.mpr h]

end Origin

/-- No page is asked for at another address. -/
lemma Request.visits_of_unsecured (h : Url.schemeOf url ≠ .ok "https".toList) :
    (Request.ofUrl url).visits = [] := by
  rw [visits]
  split
  · next other ho =>
    rcases Origin.of_request_eq_ok ho with ⟨-, hinput⟩ | ⟨hsecured, -⟩
    · cases hinput
    · exact absurd hsecured h
  · rfl

/-! ### Loading -/

/-- What is loaded from a page is its text, under the address where it stands in the end. -/
lemma load_of_page (h : Origin.of r = .ok (.page url)) : load w r =
    (w.render url).mapError .load >>= fun page =>
      readHtml 0 page.html >>= fun d => .ok ⟨d, page.html, page.url⟩ := by
  rw [load, h, ok_bind, Origin.fetch]
  cases w.render url <;> rfl

/-- A document from the input. -/
lemma of_load_input (h : Origin.of r = .ok .input) (hl : load w r = .ok l) :
    l.html = w.input ∧ l.source = "<stdin>".toList := by
  rw [load, h, ok_bind, Origin.fetch] at hl
  split_ifs at hl
  · simp at hl
  · rw [ok_bind] at hl
    obtain ⟨d, -, hd⟩ := bind_eq_ok.mp hl
    obtain rfl := Except.ok.inj hd
    exact ⟨rfl, rfl⟩

/-- A document from a page. -/
lemma of_load_page (h : Origin.of r = .ok (.page url)) (hl : load w r = .ok l) :
    ∃ page, w.render url = .ok page ∧ l.html = page.html ∧ l.source = page.url := by
  rw [load_of_page h] at hl
  obtain ⟨page, hpage, hl⟩ := bind_eq_ok.mp hl
  obtain ⟨d, -, hd⟩ := bind_eq_ok.mp hl
  obtain rfl := Except.ok.inj hd
  exact ⟨page, mapError_eq_ok.mp hpage, rfl, rfl⟩

/-- **Without leave for open lines** a document comes from the input, if the address is empty, or
from the page at a secured address; that page is loaded as it is, wherever it stands in the end.
At any other address no page is asked for, so that it does not matter what pages there are. -/
theorem load_secured (w : World) (url : Text) :
    (∀ l, load w (.ofUrl url) = .ok l →
        (url = [] ∧ l.html = w.input ∧ l.source = "<stdin>".toList) ∨
          (Url.schemeOf url = .ok "https".toList ∧
            ∃ page, w.render url = .ok page ∧ l.html = page.html ∧ l.source = page.url)) ∧
      (Url.schemeOf url = .ok "https".toList → (Request.ofUrl url).visits = [url] ∧
        ∀ page d, w.render url = .ok page → readHtml 0 page.html = .ok d →
          load w (.ofUrl url) = .ok ⟨d, page.html, page.url⟩) ∧
      (Url.schemeOf url ≠ .ok "https".toList → (Request.ofUrl url).visits = [] ∧
        ∀ render, load { w with render := render } (.ofUrl url) = load w (.ofUrl url)) := by
  refine ⟨fun l hl => ?_, fun hsecured => ⟨?_, fun page d hpage hd => ?_⟩, fun hunsecured => ?_⟩
  · obtain ⟨o, ho, -⟩ := bind_eq_ok.mp hl
    rcases Origin.of_request_eq_ok ho with ⟨hempty, rfl⟩ | ⟨hsecured, rfl⟩
    · exact .inl ⟨hempty, of_load_input ho hl⟩
    · exact .inr ⟨hsecured, of_load_page ho hl⟩
  · rw [Request.visits, Origin.of_request_secured hsecured]
  · rw [load_of_page (Origin.of_request_secured hsecured), hpage]
    exact bind_eq_ok.mpr ⟨page, rfl, bind_eq_ok.mpr ⟨d, hd, rfl⟩⟩
  · have hvisits := Request.visits_of_unsecured hunsecured
    exact ⟨hvisits, fun render => load_congr rfl rfl (by simp [hvisits])⟩

/-- A browser that is led from every address to one and the same page over an open line. -/
def redirecting : Browser where
  start := .ok ()
  visit _ := .ok ⟨"http://b/".toList, some 200, "<p>x</p>".toList⟩

/-- Its pages, and nothing else to be read. -/
def redirected : World where
  read _ := .error .missing
  render url := (redirecting.render url Browser.defaultTimeout true).2
  input := []

/-- The page of a secured address is asked for, and the one that is loaded comes over an open
line. -/
theorem load_redirected :
    Url.schemeOf "https://a/".toList = .ok "https".toList ∧
      ∃ l, load redirected (.ofUrl "https://a/".toList) = .ok l ∧ l.html = "<p>x</p>".toList ∧
        l.source = "http://b/".toList ∧ Url.schemeOf l.source = .ok "http".toList := by
  have hsome : ((load redirected (.ofUrl "https://a/".toList)).toOption.map fun l =>
      (l.html, l.source)) = some ("<p>x</p>".toList, "http://b/".toList) := by decide +kernel
  obtain ⟨l, hl, hparts⟩ := Option.map_eq_some_iff.mp hsome
  obtain ⟨hhtml, hsource⟩ := Prod.mk.inj hparts
  refine ⟨rfl, l, eq_ok_of_toOption hl, hhtml, hsource, ?_⟩
  rw [hsource]
  rfl

end Locator
