import AuthWebauthn.Verify.Handler

namespace AuthWebauthn

/-- One entry of a header list. -/
structure TableElt where
  key : Bytes
  value : Bytes
  lowcaseKey : Bytes
deriving DecidableEq

def strlow (text : Bytes) : Bytes :=
  text.map fun byte => if 65 ≤ byte ∧ byte ≤ 90 then byte ||| 0x20 else byte

inductive AuthStatus where
  | authenticated
  | unauthenticated
  | expired
  | invalid
deriving DecidableEq

def AuthStatus.name : AuthStatus → Bytes
  | .authenticated => ascii "authenticated"
  | .unauthenticated => ascii "unauthenticated"
  | .expired => ascii "expired"
  | .invalid => ascii "invalid"

/-- The module context of a request. -/
structure Ctx where
  userId : Bytes
  credentialId : Bytes
  authStatus : AuthStatus
  jwtExp : Option Int64
deriving DecidableEq

def Ctx.fresh : Ctx := ⟨[], [], .unauthenticated, none⟩

inductive Variable where
  | userId
  | credentialId
  | authStatus
  | jwtExp
deriving DecidableEq

/-- `none` is `not_found`, which nginx expands to the empty string. -/
def webauthnVariable (ctx : Option Ctx) (data : Variable) : Option Bytes :=
  match ctx with
  | none => if data = .authStatus then some (ascii "unauthenticated") else none
  | some ctx =>
      let value : Option Bytes := match data with
        | .userId => some ctx.userId
        | .credentialId => some ctx.credentialId
        | .authStatus => some ctx.authStatus.name
        | .jwtExp => ctx.jwtExp.map fun exp => Decimal.ofInt exp.toInt
      value.filter fun value => value.length ≠ 0

/-- What a request brings to the gate.  Finding a cookie by its name and
expanding a header value, which may refer to the context and to headers, are up
to the nginx core. -/
structure GateRequest where
  headersIn : List TableElt
  cookie : Bytes → Option Bytes
  now : Int64
  complexValue : Ctx → List TableElt → Bytes → Bytes

inductive GateResult where
  | declined
  | ok
  | unauthorized
  | movedTemporarily (location : Bytes)
  | internalError
deriving DecidableEq

/-- What the handler leaves in the request. -/
structure GateState where
  ctx : Option Ctx
  headersIn : List TableElt
deriving DecidableEq

def unauthorized (conf : LocConf) : GateResult :=
  if conf.signinUrl.length = 0 then .unauthorized else .movedTemporarily conf.signinUrl

def hmacJwksDoc (conf : LocConf) : Bytes :=
  ascii "\x7b\"keys\":[\x7b\"kty\":\"oct\",\"k\":\"" ++ Base64url.encode conf.jwtSecret ++
    ascii "\",\"alg\":\"" ++ conf.jwtAlg.name ++ ascii "\"\x7d]\x7d"

def keyvalDoc (conf : LocConf) : Bytes :=
  ascii "\x7b\"webauthn\":\"" ++ jsonEscape conf.jwtPubPem ++ ascii "\"\x7d"

def buildJwks (ext : Externals) (conf : LocConf) : Option ext.Jwks :=
  match conf.jwtAlg.family with
  | .hmac => ext.jwksParse (hmacJwksDoc conf)
  | .asym => ext.jwksParseKeyval (keyvalDoc conf)

/-- One turn of the loop of `apply_headers`: the entry is pushed behind all
others, whatever their names. -/
def applyHeader (request : GateRequest) (ctx : Ctx) (headers : List TableElt) (header : SetHeader) :
    List TableElt :=
  headers ++ [{ key := header.name
                value := request.complexValue ctx headers header.value
                lowcaseKey := strlow header.name }]

def applyHeaders (conf : LocConf) (request : GateRequest) (ctx : Ctx) : List TableElt :=
  match conf.setHeaders with
  | none => request.headersIn
  | some headers => headers.foldl (applyHeader request ctx) request.headersIn

/-- `apply_headers` with a way to expand values that may fail.  The entries
pushed before a failure stay. -/
def applyHeadersWith (evaluate : Ctx → List TableElt → Bytes → Option Bytes) (ctx : Ctx) :
    List TableElt → List SetHeader → Rc × List TableElt
  | headers, [] => (.ok, headers)
  | headers, header :: rest =>
      match evaluate ctx headers header.value with
      | none => (.error, headers)
      | some value => applyHeadersWith evaluate ctx
          (headers ++ [{ key := header.name, value, lowcaseKey := strlow header.name }]) rest

def issuer : Bytes := ascii "nginx-webauthn"

/-- What is left to do for an authenticated request. -/
def finishAccess (evaluate : Ctx → List TableElt → Bytes → Option Bytes) (conf : LocConf)
    (request : GateRequest) (ctx : Ctx) : GateResult × GateState :=
  let applied := applyHeadersWith evaluate ctx request.headersIn (conf.setHeaders.getD [])
  if applied.1 ≠ .ok then (.internalError, ⟨some ctx, applied.2⟩) else (.ok, ⟨some ctx, applied.2⟩)

def accessHandlerWith (evaluate : Ctx → List TableElt → Bytes → Option Bytes) (ext : Externals)
    (conf : LocConf) (request : GateRequest) : GateResult × GateState :=
  let stop (status : AuthStatus) (result : GateResult) : GateResult × GateState :=
    (result, ⟨some { Ctx.fresh with authStatus := status }, request.headersIn⟩)
  if conf.auth = false then (.declined, ⟨none, request.headersIn⟩)
  else if conf.jwtSecret.length = 0 then stop .unauthenticated .internalError
  else match request.cookie conf.cookieName with
    | none => stop .unauthenticated (unauthorized conf)
    | some cookie =>
        match ext.jwxDecode cookie with
        | none => stop .invalid (unauthorized conf)
        | some token =>
            match buildJwks ext conf with
            | none => stop .unauthenticated .internalError
            | some jwks =>
                if ext.jwsVerify token jwks = false then stop .invalid (unauthorized conf)
                else match ext.tokenPayload token with
                  | none => stop .invalid (unauthorized conf)
                  | some payload =>
                      if ext.claimsGetString payload (ascii "aud") ≠ some conf.rpId then
                        stop .invalid (unauthorized conf)
                      else if ext.claimsGetString payload (ascii "iss") ≠ some issuer then
                        stop .invalid (unauthorized conf)
                      else match ext.claimsGetInteger payload (ascii "exp") with
                        | none => stop .expired (unauthorized conf)
                        | some exp =>
                            if exp ≤ request.now then stop .expired (unauthorized conf)
                            else finishAccess evaluate conf request
                              { userId := (ext.claimsGetString payload (ascii "sub")).getD []
                                credentialId := (ext.claimsGetString payload (ascii "cid")).getD []
                                authStatus := .authenticated
                                jwtExp := some exp }

/-- The handler as it runs when memory does not run out: expanding a value then
always succeeds. -/
def accessHandler (ext : Externals) (conf : LocConf) (request : GateRequest) :
    GateResult × GateState :=
  accessHandlerWith (fun ctx headers value => some (request.complexValue ctx headers value)) ext conf request

variable {ext : Externals} {conf : LocConf} {request : GateRequest}

/-- Everything the gate has checked when it lets a request pass. -/
structure Authenticated (ext : Externals) (conf : LocConf) (request : GateRequest) (token : ext.Token)
    (payload : ext.Json) (exp : Int64) : Prop where
  enabled : conf.auth = true
  keyed : conf.jwtSecret ≠ []
  cookie : ∃ cookie, request.cookie conf.cookieName = some cookie ∧ ext.jwxDecode cookie = some token
  signed : ∃ jwks, buildJwks ext conf = some jwks ∧ ext.jwsVerify token jwks = true
  carries : ext.tokenPayload token = some payload
  audience : ext.claimsGetString payload (ascii "aud") = some conf.rpId
  issued : ext.claimsGetString payload (ascii "iss") = some issuer
  expires : ext.claimsGetInteger payload (ascii "exp") = some exp
  fresh : request.now < exp

/-- The context of a request that has passed. -/
def ctxOf (ext : Externals) (payload : ext.Json) (exp : Int64) : Ctx where
  userId := (ext.claimsGetString payload (ascii "sub")).getD []
  credentialId := (ext.claimsGetString payload (ascii "cid")).getD []
  authStatus := .authenticated
  jwtExp := some exp

theorem unauthorized_ne_ok : unauthorized conf ≠ .ok := by
  unfold unauthorized
  split_ifs <;> simp

variable {evaluate : Ctx → List TableElt → Bytes → Option Bytes}

theorem Authenticated.accessHandlerWith {token : ext.Token} {payload : ext.Json} {exp : Int64}
    (authenticated : Authenticated ext conf request token payload exp)
    (evaluate : Ctx → List TableElt → Bytes → Option Bytes) :
    accessHandlerWith evaluate ext conf request = finishAccess evaluate conf request (ctxOf ext payload exp) := by
  obtain ⟨cookie, found, decoded⟩ := authenticated.cookie
  obtain ⟨jwks, built, verified⟩ := authenticated.signed
  have keyed : ¬ conf.jwtSecret.length = 0 := by simpa using authenticated.keyed
  have fresh : ¬ exp ≤ request.now := Int64.not_le.mpr authenticated.fresh
  simp only [AuthWebauthn.accessHandlerWith, authenticated.enabled, keyed, found, decoded, built, verified,
    authenticated.carries, authenticated.audience, authenticated.issued, authenticated.expires, fresh,
    ne_eq, not_true_eq_false, Bool.true_eq_false, if_false]
  rfl

theorem applyHeadersWith_total (headers : List TableElt) (ctx : Ctx) (directives : List SetHeader) :
    applyHeadersWith (fun ctx headers value => some (request.complexValue ctx headers value)) ctx headers
      directives = (.ok, directives.foldl (applyHeader request ctx) headers) := by
  induction directives generalizing headers with
  | nil => rfl
  | cons header rest ih => exact ih _

theorem Authenticated.accessHandler {token : ext.Token} {payload : ext.Json} {exp : Int64}
    (authenticated : Authenticated ext conf request token payload exp) :
    accessHandler ext conf request = (.ok, ⟨some (ctxOf ext payload exp),
      applyHeaders conf request (ctxOf ext payload exp)⟩) := by
  rw [AuthWebauthn.accessHandler, authenticated.accessHandlerWith, finishAccess, applyHeadersWith_total,
    applyHeaders]
  cases conf.setHeaders <;> rfl

/-- A context that names nobody. -/
def Anonymous (ctx : Option Ctx) : Prop :=
  ctx = none ∨ ∃ status, ctx = some { Ctx.fresh with authStatus := status }

/-- The request stopped before it was authenticated. -/
structure Stopped (request : GateRequest) (outcome : GateResult × GateState) : Prop where
  result : outcome.1 ≠ .ok
  ctx : Anonymous outcome.2.ctx
  headersIn : outcome.2.headersIn = request.headersIn

theorem stopped_status {result : GateResult} (failed : result ≠ .ok) (status : AuthStatus) :
    Stopped request (result, ⟨some { Ctx.fresh with authStatus := status }, request.headersIn⟩) :=
  ⟨failed, .inr ⟨status, rfl⟩, rfl⟩

/-- Every exit of the handler: it stops, or all checks were met. -/
theorem accessHandlerWith_cases (evaluate : Ctx → List TableElt → Bytes → Option Bytes) (ext : Externals)
    (conf : LocConf) (request : GateRequest) :
    Stopped request (accessHandlerWith evaluate ext conf request) ∨
    ∃ token payload exp, Authenticated ext conf request token payload exp := by
  unfold accessHandlerWith
  simp only
  by_cases disabled : conf.auth = false
  · rw [if_pos disabled]
    exact .inl ⟨by simp, .inl rfl, rfl⟩
  by_cases unkeyed : conf.jwtSecret.length = 0
  · rw [if_neg disabled, if_pos unkeyed]
    exact .inl (stopped_status (by simp) _)
  rw [if_neg disabled, if_neg unkeyed]
  cases found : request.cookie conf.cookieName with
  | none => exact .inl (stopped_status unauthorized_ne_ok _)
  | some cookie =>
      simp only
      cases decoded : ext.jwxDecode cookie with
      | none => exact .inl (stopped_status unauthorized_ne_ok _)
      | some token =>
          simp only
          cases built : buildJwks ext conf with
          | none => exact .inl (stopped_status (by simp) _)
          | some jwks =>
              simp only
              split_ifs with unverified
              · exact .inl (stopped_status unauthorized_ne_ok _)
              cases carries : ext.tokenPayload token with
              | none => exact .inl (stopped_status unauthorized_ne_ok _)
              | some payload =>
                  simp only
                  split_ifs with audience issued
                  · exact .inl (stopped_status unauthorized_ne_ok _)
                  · exact .inl (stopped_status unauthorized_ne_ok _)
                  cases expires : ext.claimsGetInteger payload (ascii "exp") with
                  | none => exact .inl (stopped_status unauthorized_ne_ok _)
                  | some exp =>
                      simp only
                      split_ifs with late
                      · exact .inl (stopped_status unauthorized_ne_ok _)
                      · exact .inr ⟨token, payload, exp, by simpa using disabled, by simpa using unkeyed,
                          ⟨cookie, found, decoded⟩, ⟨jwks, built, by simpa using unverified⟩, carries,
                          not_not.mp audience, not_not.mp issued, expires, Int64.not_le.mp late⟩

theorem authenticated_of_ok (passed : (AuthWebauthn.accessHandler ext conf request).1 = .ok) :
    ∃ token payload exp, Authenticated ext conf request token payload exp := by
  rcases accessHandlerWith_cases _ ext conf request with stopped | authenticated
  · exact absurd passed stopped.result
  · exact authenticated

end AuthWebauthn
