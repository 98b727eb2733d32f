/-
Pages rendered by a browser

* `Browser`: what a browser does when it is started and when it is sent to an
  address;
* `Browser.render`: the page at an address, or why there is none, with the
  calls that the browser gets: once it has started, it is closed at the end;
* `meansMissing`: does the message of a failure say that there is no browser?
-/
import Locator.Failure

namespace Locator

/-- A page as a browser has rendered it. -/
structure Page where
  /-- The address at the end of all redirections. -/
  url : Text
  /-- The status of the response; there may have been no response. -/
  status : Option Int
  html : Text
  deriving Repr, DecidableEq

/-- What a browser does; its failures are messages. -/
structure Browser where
  start : Except Text Unit
  visit : Text → Except Text Page

/-- What a browser is told. -/
inductive BrowserCall
  | launch (headless : Bool)
  | newPage
  | goTo (url readiness : Text) (timeout : Int)
  | content
  | close
  deriving Repr, DecidableEq

namespace Browser

/-- Parts of messages that say that there is no browser. -/
def missingHints : List Text :=
  ["executable doesn't exist".toList, "executable does not exist".toList,
   "download new browsers".toList, "playwright install".toList,
   "could not find browser".toList,
   "failed to launch chromium because executable".toList]

/-- Does the message of a failure say that there is no browser? Letter case
does not count. -/
def meansMissing (message : Text) : Bool :=
  missingHints.any (fun hint => Text.occursIn hint (Text.lower message))

/-- The failure to load an address that a message of a browser means. -/
def failure (url message : Text) : LoadError :=
  if meansMissing message then .noBrowser else .browser url message

/-- How long a browser waits for a page unless it is told otherwise, in
milliseconds. -/
def defaultTimeout : Int := 30000

/-- What a browser waits for before it takes the content of a page. -/
def readiness : Text := "domcontentloaded".toList

/-- The page at an address, with the calls of the browser. -/
def render (b : Browser) (url : Text) (timeout : Int) (headless : Bool) :
    List BrowserCall × Except LoadError Page :=
  match b.start with
  | .error m => ([.launch headless], .error (failure url m))
  | .ok _ =>
    let calls := [.launch headless, .newPage, .goTo url readiness timeout]
    match b.visit url with
    | .error m => (calls ++ [.close], .error (failure url m))
    | .ok page =>
      match page.status with
      | some n =>
        if 400 ≤ n then (calls ++ [.close], .error (.status n))
        else (calls ++ [.content, .close], .ok page)
      | none => (calls ++ [.content, .close], .ok page)

end Browser

end Locator
