import AuthWebauthn.Gate.Handler
import AuthWebauthn.System.Sample

namespace AuthWebauthn

/-! `apply_headers` pushes its entries and leaves those that the client has sent,
also under the same names.
-/

variable {conf : LocConf} {request : GateRequest} {ctx : Ctx}

/-- The entries that the directives push, one after the other. -/
def directiveEntries (request : GateRequest) (ctx : Ctx) : List TableElt → List SetHeader → List TableElt
  | _, [] => []
  | headers, header :: rest =>
      { key := header.name
        value := request.complexValue ctx headers header.value
        lowcaseKey := strlow header.name } ::
        directiveEntries request ctx (applyHeader request ctx headers header) rest

def LocConf.directives (conf : LocConf) : List SetHeader := conf.setHeaders.getD []

/-- The entry has the name of a configured header, up to case. -/
def named (conf : LocConf) (entry : TableElt) : Bool :=
  conf.directives.any fun header => strlow header.name = strlow entry.key

/-- A directive of the entry's name has produced its value. -/
def Produced (conf : LocConf) (request : GateRequest) (ctx : Ctx) (entry : TableElt) : Prop :=
  ∃ pushed ∈ directiveEntries request ctx request.headersIn conf.directives,
    strlow pushed.key = strlow entry.key ∧ pushed.value = entry.value

theorem foldl_applyHeader (headers : List TableElt) (directives : List SetHeader) :
    directives.foldl (applyHeader request ctx) headers =
      headers ++ directiveEntries request ctx headers directives := by
  induction directives generalizing headers with
  | nil => simp [directiveEntries]
  | cons header rest ih =>
      rw [List.foldl_cons, ih, directiveEntries]
      simp [applyHeader]

theorem applyHeaders_eq : applyHeaders conf request ctx =
    request.headersIn ++ directiveEntries request ctx request.headersIn conf.directives := by
  unfold applyHeaders LocConf.directives
  cases conf.setHeaders with
  | none => simp [directiveEntries]
  | some directives => exact foldl_applyHeader request.headersIn directives

theorem directiveEntries_key {headers : List TableElt} {directives : List SetHeader} {entry : TableElt}
    (pushed : entry ∈ directiveEntries request ctx headers directives) :
    ∃ header ∈ directives, header.name = entry.key := by
  induction directives generalizing headers with
  | nil => cases pushed
  | cons header rest ih =>
      rcases List.mem_cons.mp pushed with rfl | later
      · exact ⟨header, by simp, rfl⟩
      · obtain ⟨other, member, same⟩ := ih later
        exact ⟨other, by simp [member], same⟩

theorem named_of_directive {entry : TableElt}
    (pushed : entry ∈ directiveEntries request ctx request.headersIn conf.directives) :
    named conf entry = true := by
  obtain ⟨header, member, same⟩ := directiveEntries_key pushed
  exact List.any_eq_true.mpr ⟨header, member, by simp [same]⟩

/-- The context that the token in the request's cookie stands for. -/
def tokenCtx (ext : Externals) (conf : LocConf) (request : GateRequest) : Option Ctx := do
  let token ← ext.jwxDecode (← request.cookie conf.cookieName)
  let payload ← ext.tokenPayload token
  return ctxOf ext payload (← ext.claimsGetInteger payload (ascii "exp"))

theorem Authenticated.tokenCtx {ext : Externals} {token : ext.Token} {payload : ext.Json} {exp : Int64}
    (authenticated : Authenticated ext conf request token payload exp) :
    tokenCtx ext conf request = some (ctxOf ext payload exp) := by
  obtain ⟨cookie, found, decoded⟩ := authenticated.cookie
  simp [AuthWebauthn.tokenCtx, found, decoded, authenticated.carries, authenticated.expires]

/-- After the gate, the entries with configured names are the directives' own
exactly if the client sent none, and they carry values of directives exactly if
those that the client sent do. -/
theorem headers_unspoofed_iff (ext : Externals) (conf : LocConf) (request : GateRequest)
    (state : GateState) (passed : accessHandler ext conf request = (.ok, state)) :
    ∃ ctx, tokenCtx ext conf request = some ctx ∧
      (state.headersIn.filter (named conf) =
          directiveEntries request ctx request.headersIn conf.directives ↔
        ∀ entry ∈ request.headersIn, named conf entry = false) ∧
      ((∀ entry ∈ state.headersIn, named conf entry = true → Produced conf request ctx entry) ↔
        ∀ entry ∈ request.headersIn, named conf entry = true → Produced conf request ctx entry) := by
  obtain ⟨token, payload, exp, authenticated⟩ := authenticated_of_ok (congrArg Prod.fst passed)
  rw [authenticated.accessHandler] at passed
  obtain rfl := (Prod.mk.inj passed).2
  refine ⟨_, authenticated.tokenCtx, ?_, ?_⟩
  · rw [applyHeaders_eq, List.filter_append,
      List.filter_eq_self.mpr fun entry pushed => named_of_directive pushed, List.append_left_eq_self,
      List.filter_eq_nil_iff]
    simp
  · rw [applyHeaders_eq]
    constructor
    · intro all entry sent
      exact all entry (List.mem_append_left _ sent)
    · intro sent entry member hasName
      rcases List.mem_append.mp member with client | pushed
      · exact sent entry client hasName
      · exact ⟨entry, pushed, rfl, rfl⟩

namespace Sample

def gateConf : LocConf :=
  { Sample.conf with setHeaders := some [⟨ascii "X-WebAuthn-User", ascii "$webauthn_user_id"⟩] }

/-- A request with the cookie of the first login. -/
def gateRequest (headers : List TableElt) : GateRequest where
  headersIn := headers
  cookie name := if name = ascii "webauthn_session" then some jwt else none
  now := 1001
  complexValue ctx _ value := if value = ascii "$webauthn_user_id" then ctx.userId else value

def gateCtx : Ctx := ⟨ascii "alice", ascii "AQ", .authenticated, some 4600⟩

def userHeader (value : Bytes) : TableElt := ⟨ascii "X-WebAuthn-User", value, ascii "x-webauthn-user"⟩

def acceptHeader : TableElt := ⟨ascii "Accept", ascii "*/*", ascii "accept"⟩

end Sample

theorem unspoofed_without_collision :
    ∃ ctx, tokenCtx Sample.ext Sample.gateConf (Sample.gateRequest [Sample.acceptHeader]) = some ctx ∧
      ([Sample.acceptHeader, Sample.userHeader (ascii "alice")].filter (named Sample.gateConf) =
          directiveEntries (Sample.gateRequest [Sample.acceptHeader]) ctx [Sample.acceptHeader]
            Sample.gateConf.directives ↔
        ∀ entry ∈ [Sample.acceptHeader], named Sample.gateConf entry = false) ∧
      ((∀ entry ∈ [Sample.acceptHeader, Sample.userHeader (ascii "alice")],
          named Sample.gateConf entry = true →
          Produced Sample.gateConf (Sample.gateRequest [Sample.acceptHeader]) ctx entry) ↔
        ∀ entry ∈ [Sample.acceptHeader], named Sample.gateConf entry = true →
          Produced Sample.gateConf (Sample.gateRequest [Sample.acceptHeader]) ctx entry) :=
  headers_unspoofed_iff Sample.ext Sample.gateConf (Sample.gateRequest [Sample.acceptHeader])
    ⟨some Sample.gateCtx, [Sample.acceptHeader, Sample.userHeader (ascii "alice")]⟩ (by decide +kernel)

/-- The client's own header is still there, before the one of the directive. -/
theorem client_header_survives :
    accessHandler Sample.ext Sample.gateConf (Sample.gateRequest [Sample.userHeader (ascii "mallory")]) =
        (.ok, ⟨some Sample.gateCtx,
          [Sample.userHeader (ascii "mallory"), Sample.userHeader (ascii "alice")]⟩) ∧
      ¬ ∀ entry ∈ [Sample.userHeader (ascii "mallory"), Sample.userHeader (ascii "alice")],
        named Sample.gateConf entry = true →
        Produced Sample.gateConf (Sample.gateRequest [Sample.userHeader (ascii "mallory")])
          Sample.gateCtx entry := by
  refine ⟨by decide +kernel, fun unspoofed => ?_⟩
  obtain ⟨pushed, member, _, value⟩ :=
    unspoofed (Sample.userHeader (ascii "mallory")) (by simp) (by decide)
  have only : directiveEntries (Sample.gateRequest [Sample.userHeader (ascii "mallory")]) Sample.gateCtx
      [Sample.userHeader (ascii "mallory")] Sample.gateConf.directives =
        [Sample.userHeader (ascii "alice")] := by decide
  obtain rfl := List.mem_singleton.mp (only ▸ member)
  exact absurd value (by decide)

end AuthWebauthn
