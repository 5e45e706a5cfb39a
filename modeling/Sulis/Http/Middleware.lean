-- SUMMARY: The HTTP middleware: the token of a request, the two guards against forged requests, and the refusals.
import Sulis.Model.Calls
import Sulis.Model.New

/-!
# The HTTP middleware

`middleware.go`, `csrf.go` and `cookie.go`. A middleware that refuses a request
answers it without touching a store, and otherwise calls the handler it wraps.
`Authenticate` is the one in the middle: it validates the session. What the wrapped
handler at the end of the chain does is not the library's business; here it only
notes that it was reached, and with which context.
-/

namespace Sulis.Http

/-! ## Requests and answers -/

inductive TokenSource
  | both
  | cookieOnly
  | bearerOnly
  deriving DecidableEq, Repr

/-- The configuration with everything the HTTP layer reads. -/
structure WebSettings extends Settings where
  tokenSource : TokenSource := .both
  deriving DecidableEq, Repr

/-- What the middleware reads of an `http.Request`: cookies and form values as
    `net/http` parses them, in order. -/
structure Request where
  method : String
  headers : List (String × String) := []
  cookies : List (String × String) := []
  form : List (String × String) := []
  /-- What `requestInfoFromRequest` makes of the peer address and the User-Agent. -/
  peer : RequestInfo := {}
  deriving DecidableEq, Repr

/-- The first value stored under a name that passes the test. -/
def firstValue (values : List (String × String)) (test : String → Bool) : Option String :=
  (values.find? (fun p => test p.1)).map (fun p => p.2)

namespace Request

/-- `r.Header.Get`: header names are compared without regard to case. -/
def header (r : Request) (name : String) : String :=
  (firstValue r.headers
    (fun n => n.toList.map Char.toLower = name.toList.map Char.toLower)).getD ""

/-- `r.Cookie` -/
def cookie? (r : Request) (name : String) : Option String :=
  firstValue r.cookies (fun n => n = name)

/-- `r.FormValue` -/
def formValue (r : Request) (name : String) : String :=
  (firstValue r.form (fun n => n = name)).getD ""

end Request

structure Response where
  status : Nat
  headers : List (String × String)
  body : String
  deriving DecidableEq, Repr

/-- `http.Error`, with the headers that were set before. -/
def httpError (headers : List (String × String)) (text : String) (status : Nat) : Response :=
  { status := status
    headers := headers ++
      [("Content-Type", "text/plain; charset=utf-8"), ("X-Content-Type-Options", "nosniff")]
    body := text ++ "\n" }

inductive RejectionKind
  | csrfRejected
  | sameOriginRejected
  deriving DecidableEq, Repr

/-- The security event of a guard that refuses. -/
structure Rejection where
  kind : RejectionKind
  requestInfo : RequestInfo
  reason : String
  deriving DecidableEq, Repr

/-- A request answered by a middleware, with the events reported on the way. -/
structure Refusal where
  response : Response
  events : List Rejection := []
  deriving DecidableEq, Repr

/-- `emit`, which nobody hears on a nil receiver or without a sink. -/
def report (s : Option WebSettings) (e : Rejection) : List Rejection :=
  match s with
  | none => []
  | some s => if s.eventSink then [e] else []

/-! ## The token of a request -/

/-- `strings.CutPrefix` -/
def cutPrefix (s start : String) : Option String :=
  if start.toList <+: s.toList then some (String.ofList (s.toList.drop start.length)) else none

/-- `extractToken`: an Authorization header that is looked at hides the cookie, whether
    it holds a token or not. -/
def extractToken (s : WebSettings) (r : Request) : String :=
  let auth := r.header "Authorization"
  if s.tokenSource ≠ .cookieOnly ∧ auth ≠ "" then
    match cutPrefix auth "Bearer " with
    | none => ""
    | some after => trimSpace after
  else if s.tokenSource ≠ .bearerOnly then (r.cookie? s.cookieName).getD ""
  else ""

/-- `writeUnauthorized` -/
def unauthorized : Refusal :=
  { response := httpError
      [("WWW-Authenticate", "Bearer realm=\"sulis\""), ("Cache-Control", "no-store")]
      "Unauthorized" 401 }

def forbidden (events : List Rejection) : Refusal :=
  { response := httpError [("Cache-Control", "no-store")] "Forbidden" 403, events := events }

/-! ## The guards -/

def isSafeMethod (method : String) : Bool :=
  method = "GET" ∨ method = "HEAD" ∨ method = "OPTIONS"

/-- `ReasonCrossSite` -/
def reasonCrossSite : String := "cross_site"

/-- `ReasonOriginNotAllowed` -/
def reasonOriginNotAllowed : String := "origin_not_allowed"

/-- `ReasonCSRFTokenInvalid` -/
def reasonCSRFTokenInvalid : String := "csrf_token_invalid"

/-- The switch of `requireSameOrigin`: whether the request is allowed, and the reason
    to give if it is not. -/
def originVerdict (allowed : List String) (secFetchSite origin : String) : Bool × String :=
  if secFetchSite = "" ∧ origin = "" then (true, reasonCrossSite)
  else if secFetchSite = "same-origin" ∨ secFetchSite = "none" then (true, reasonCrossSite)
  else if origin ≠ "" then (decide (origin ∈ allowed), reasonOriginNotAllowed)
  else if secFetchSite = "same-site" then (false, reasonOriginNotAllowed)
  else (false, reasonCrossSite)

/-- What the guards share: a safe method passes, and so does a request that stands the
    test. Any other is refused, and the refusal reported. -/
def refuseUnsafe (s : Option WebSettings) (r : Request) (kind : RejectionKind) (allow : Bool)
    (reason : String) : Option Refusal :=
  if isSafeMethod r.method then none
  else if allow then none
  else some (forbidden (report s { kind := kind, requestInfo := r.peer, reason := reason }))

/-- `requireSameOrigin`, as far as it does not call the handler it wraps. -/
def requireSameOrigin (s : Option WebSettings) (allowed : List String) (r : Request) :
    Option Refusal :=
  let verdict := originVerdict allowed (r.header "Sec-Fetch-Site") (r.header "Origin")
  refuseUnsafe s r .sameOriginRejected verdict.1 verdict.2

/-- `CSRFCookieName` -/
def csrfCookieName : String := "__Host-csrf_token"

/-- `CSRFHeaderName` -/
def csrfHeaderName : String := "X-CSRF-Token"

/-- `CSRFFormField` -/
def csrfFormField : String := "csrf_token"

/-- `verifyCSRFToken`, whose one error is `ErrCSRFTokenInvalid`. -/
def verifyCSRFToken (r : Request) (cookieName : String) : Bool :=
  match r.cookie? cookieName with
  | none => false
  | some value =>
    if value = "" then false
    else
      let echoed := r.header csrfHeaderName
      let sent := if echoed = "" then r.formValue csrfFormField else echoed
      if sent = "" then false else value = sent

/-- The cookie `requireCSRFToken` reads: the default one on a nil receiver. -/
def cookieNameFor : Option WebSettings → String
  | none => csrfCookieName
  | some s => s.csrfCookieName

/-- `requireCSRFToken`, as far as it does not call the handler it wraps. -/
def requireCSRFToken (s : Option WebSettings) (r : Request) : Option Refusal :=
  refuseUnsafe s r .csrfRejected (verifyCSRFToken r (cookieNameFor s)) reasonCSRFTokenInvalid

/-- A guard in front of a handler: the method of an instance, or the function of the
    package, which has none. -/
inductive Guard
  | sameOrigin (bound : Bool) (allowed : List String)
  | csrfToken (bound : Bool)
  deriving DecidableEq, Repr

/-- The receiver a guard was made with. -/
def receiver (s : WebSettings) (bound : Bool) : Option WebSettings := if bound then some s else none

def Guard.refuse? (s : WebSettings) : Guard → Request → Option Refusal
  | .sameOrigin bound allowed, r => requireSameOrigin (receiver s bound) allowed r
  | .csrfToken bound, r => requireCSRFToken (receiver s bound) r

/-- The guards around a handler, the outermost first. -/
def protect (s : WebSettings) (guards : List Guard) (next : Request → Option Refusal) :
    Request → Option Refusal :=
  guards.foldr (fun guard next r =>
    match guard.refuse? s r with
    | some refusal => some refusal
    | none => next r) next

/-! ## The chain -/

/-- A handler with guards outside and inside of `Authenticate`. -/
structure Chain where
  outer : List Guard
  inner : List Guard
  deriving DecidableEq, Repr

/-- How a request ends: a middleware answers it, or the handler is reached with the
    session and the user in its context. -/
inductive Exchange
  | refused (refusal : Refusal)
  | reached (session : Session) (user : User)
  deriving DecidableEq, Repr

/-- `Authenticate` up to the validation: without a token there is nothing to
    validate. -/
def authenticate (s : WebSettings) (r : Request) : Option Refusal :=
  if extractToken s r = "" then some unauthorized else none

/-- The chain up to the validation. -/
def Chain.before (chain : Chain) (s : WebSettings) (r : Request) : Option Refusal :=
  protect s chain.outer (authenticate s) r

/-- The rest of `Authenticate`, and of the chain, once the session was validated. -/
def Chain.after (chain : Chain) (s : WebSettings) (r : Request) :
    Except Err (Session × User) → Exchange
  | .error _ => .refused unauthorized
  | .ok (session, user) =>
    match protect s chain.inner (fun _ => none) r with
    | some refusal => .refused refusal
    | none => .reached session user

/-- How requests are handled beside a run of the package: one is answered before its token
    is looked at, or it is operation `i` of the run that validates the token. -/
inductive Handled [Platform] (s : WebSettings) (chain : Chain) (c : Run s.toConfig) (r : Request) :
    Exchange → Prop
  | early {x : Refusal} (hbefore : chain.before s r = some x) : Handled s chain c r (.refused x)
  | validated {i : Nat} {out : Except Err (Session × User)} (hbefore : chain.before s r = none)
      (hret : c.Returned i (.validateSession (extractToken s r)) out) :
      Handled s chain c r (chain.after s r out)

end Sulis.Http
