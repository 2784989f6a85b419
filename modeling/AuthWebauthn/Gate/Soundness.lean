import AuthWebauthn.Gate.Headers

namespace AuthWebauthn

/-! The handler leaves at many points, and the variables are read from whatever
context it has left.
-/

/-- The values of the location's set_header directives can be expanded. -/
def Evaluates (evaluate : Ctx → List TableElt → Bytes → Option Bytes) (conf : LocConf) : Prop :=
  ∀ header ∈ conf.directives, ∀ ctx headers, (evaluate ctx headers header.value).isSome = true

/-- The request carries a session token that is valid at this location. -/
def HasSession (ext : Externals) (conf : LocConf) (request : GateRequest) : Prop :=
  ∃ token payload exp, Authenticated ext conf request token payload exp

variable {ext : Externals} {conf : LocConf} {request : GateRequest} {ctx : Ctx}
  {evaluate : Ctx → List TableElt → Bytes → Option Bytes}

theorem applyHeadersWith_ok {headers : List TableElt} {directives : List SetHeader}
    (evaluates : ∀ header ∈ directives, ∀ ctx headers, (evaluate ctx headers header.value).isSome = true) :
    (applyHeadersWith evaluate ctx headers directives).1 = .ok := by
  induction directives generalizing headers with
  | nil => rfl
  | cons header rest ih =>
      obtain ⟨value, expanded⟩ := Option.isSome_iff_exists.mp (evaluates header (by simp) ctx headers)
      simp only [applyHeadersWith, expanded]
      exact ih fun later member => evaluates later (by simp [member])

theorem finishAccess_ok (evaluates : Evaluates evaluate conf) :
    (finishAccess evaluate conf request ctx).1 = .ok := by
  have applied : (applyHeadersWith evaluate ctx request.headersIn (conf.setHeaders.getD [])).1 = .ok :=
    applyHeadersWith_ok evaluates
  simp [finishAccess, applied]

theorem finishAccess_ctx : (finishAccess evaluate conf request ctx).2.ctx = some ctx := by
  unfold finishAccess
  simp only
  split_ifs <;> rfl

/-- A context that names nobody exposes its status and nothing else. -/
theorem Anonymous.hidden {left : Option Ctx} (anonymous : Anonymous left) {data : Variable}
    (identity : data ≠ .authStatus) : webauthnVariable left data = none := by
  rcases anonymous with rfl | ⟨status, rfl⟩
  · simp [webauthnVariable, identity]
  · cases data with
    | authStatus => exact absurd rfl identity
    | userId => rfl
    | credentialId => rfl
    | jwtExp => rfl

/-- The gate passes exactly the requests with a valid session, adds headers to
no other, and names no one whom it has not authenticated. -/
theorem gate_passes_iff (ext : Externals) (conf : LocConf) (request : GateRequest)
    (evaluate : Ctx → List TableElt → Bytes → Option Bytes) :
    (Evaluates evaluate conf →
      ((accessHandlerWith evaluate ext conf request).1 = .ok ↔ HasSession ext conf request) ∧
      ((accessHandlerWith evaluate ext conf request).1 ≠ .ok →
        (accessHandlerWith evaluate ext conf request).2.headersIn = request.headersIn)) ∧
    ((accessHandlerWith evaluate ext conf request).1 = .ok → HasSession ext conf request) ∧
    (¬ HasSession ext conf request →
      (accessHandlerWith evaluate ext conf request).2.headersIn = request.headersIn) ∧
    ∀ data, data ≠ .authStatus →
      (webauthnVariable (accessHandlerWith evaluate ext conf request).2.ctx data).isSome = true →
      webauthnVariable (accessHandlerWith evaluate ext conf request).2.ctx .authStatus =
        some (ascii "authenticated") := by
  rcases accessHandlerWith_cases evaluate ext conf request with stopped | session
  · have kept := stopped.headersIn
    refine ⟨fun evaluates => ⟨⟨fun passed => absurd passed stopped.result, ?_⟩, fun _ => kept⟩,
      fun passed => absurd passed stopped.result, fun _ => kept, fun data identity found => ?_⟩
    · intro session
      obtain ⟨token, payload, exp, authenticated⟩ := session
      rw [authenticated.accessHandlerWith]
      exact finishAccess_ok evaluates
    · rw [stopped.ctx.hidden identity] at found
      cases found
  · have passed := session
    obtain ⟨token, payload, exp, authenticated⟩ := session
    rw [authenticated.accessHandlerWith]
    refine ⟨fun evaluates => ⟨iff_of_true (finishAccess_ok evaluates) passed, fun failed =>
      absurd (finishAccess_ok evaluates) failed⟩, fun _ => passed, fun none => absurd passed none,
      fun _ _ _ => ?_⟩
    rw [finishAccess_ctx]
    rfl

/-- Alice's session passes, and the gate then names her. -/
theorem alice_passes_gate :
    (accessHandlerWith (fun ctx _ value => some (if value = ascii "$webauthn_user_id" then ctx.userId
      else value)) Sample.ext Sample.gateConf (Sample.gateRequest [Sample.acceptHeader])).1 = .ok ∧
    HasSession Sample.ext Sample.gateConf (Sample.gateRequest [Sample.acceptHeader]) := by
  have passes := ((gate_passes_iff Sample.ext Sample.gateConf (Sample.gateRequest [Sample.acceptHeader])
    fun ctx _ value => some (if value = ascii "$webauthn_user_id" then ctx.userId else value)).1
    fun _ _ _ _ => rfl).1
  have ok : (accessHandlerWith (fun ctx _ value => some (if value = ascii "$webauthn_user_id" then
      ctx.userId else value)) Sample.ext Sample.gateConf
      (Sample.gateRequest [Sample.acceptHeader])).1 = .ok := by decide +kernel
  exact ⟨ok, passes.mp ok⟩

end AuthWebauthn
