import AuthWebauthn.Conf.RateLimit
import AuthWebauthn.Data.Commuting
import AuthWebauthn.Data.Strtol

namespace AuthWebauthn

open Commuting

/-! The command table of the module and its setters.  Reading a number, a time, a flag or a choice into
its slot is up to the nginx core, and so is compiling a value with variables.
-/

/-- Where a directive may stand. -/
inductive Level where
  | main
  | server
  | location
deriving DecidableEq

/-- How many arguments it takes. -/
inductive Arity where
  | take1
  | take2
  | take12
  | oneMore
  | flag
deriving DecidableEq

def Arity.admits : Arity → Nat → Bool
  | take1, count | flag, count => count = 1
  | take2, count => count = 2
  | take12, count => count = 1 ∨ count = 2
  | oneMore, count => 1 ≤ count

inductive DirectiveName where
  | rpId
  | rpName
  | origin
  | challengeTtl
  | userVerification
  | challengeRateLimit
  | redis
  | redisPassword
  | redisDb
  | redisTimeout
  | redisKeyPrefix
  | jwtSecretFile
  | jwtAlg
  | jwtTtl
  | cookieName
  | cookieDomain
  | cookiePath
  | cookieSecure
  | cookieSamesite
  | cloneDetection
  | auth
  | signinUrl
  | setHeader
  | challengeHandler
  | verifyHandler
deriving DecidableEq

namespace DirectiveName

def arity : DirectiveName → Arity
  | origin => .oneMore
  | challengeRateLimit => .take12
  | setHeader => .take2
  | cookieSecure | auth | challengeHandler | verifyHandler => .flag
  | _ => .take1

def allowed : DirectiveName → Level → Bool
  | auth, level | signinUrl, level | setHeader, level => level ≠ .main
  | challengeHandler, level | verifyHandler, level => level = .location
  | _, _ => true

end DirectiveName

/-- The setters of the nginx core, given what the slot holds already. -/
structure SlotCore extends ConfCore where
  strSlot : Option Bytes → Bytes → Except Bytes Bytes
  flagSlot : Option Bool → Bytes → Except Bytes Bool
  numSlot : Option UInt64 → Bytes → Except Bytes UInt64
  secSlot : Option Int64 → Bytes → Except Bytes Int64
  msecSlot : Option UInt64 → Bytes → Except Bytes UInt64
  enumSlot {α : Type} : List (Bytes × α) → Option α → Bytes → Except Bytes α
  /-- `ngx_http_compile_complex_value`. -/
  compiles : Bytes → Bool

inductive ContentHandler where
  | challengeContent
  | verifyContent
deriving DecidableEq

/-- A block while its directives are read: the configuration of the module, and the content handler
in the configuration of the core. -/
structure BlockConf where
  conf : RawConf
  handler : Option ContentHandler
deriving DecidableEq

def cloneEnum : List (Bytes × CloneDetection) :=
  [(ascii "strict", .strict), (ascii "lax", .lax), (ascii "off", .off)]

def samesiteEnum : List (Bytes × SameSite) := [(ascii "strict", .strict), (ascii "lax", .lax), (ascii "none", .none)]

def uvEnum : List (Bytes × UserVerification) :=
  [(ascii "required", .required), (ascii "preferred", .preferred), (ascii "discouraged", .discouraged)]

def confSetOrigin (values : List Bytes) (conf : RawConf) : RawConf :=
  { conf with origins := some (some ((conf.origins.getD none).getD [] ++ values)) }

def confSetSetHeader (core : SlotCore) (name value : Bytes) (conf : RawConf) : Except Bytes RawConf :=
  if core.compiles value then
    .ok { conf with setHeaders := some (some ((conf.setHeaders.getD none).getD [] ++ [⟨name, value⟩])) }
  else .error []

/-- The parts around the first separator, `ngx_strlchr`. -/
def splitFirst (separator : UInt8) (text : Bytes) : Option (Bytes × Bytes) :=
  match text.dropWhile (· ≠ separator) with
  | [] => none
  | _ :: back => some (text.takeWhile (· ≠ separator), back)

def confSetRedis (core : ConfCore) (value : Bytes) (conf : RawConf) : Except Bytes RawConf :=
  if (conf.redisHost.getD []).length ≠ 0 then .error (ascii "is duplicate")
  else
    match splitFirst 58 value with
    | none => .error (ascii "expects <host>:<port>")
    | some (host, text) =>
        if host = [] ∨ text = [] then .error (ascii "expects <host>:<port>")
        else
          match core.atoi text with
          | none => .error (ascii "has an invalid port")
          | some port =>
              if port ≤ 0 ∨ port > 65535 then .error (ascii "has an invalid port")
              else .ok { conf with redisUrl := some value, redisHost := some host, redisPort := some port }

def confSetRedisPassword (env : ConfEnv) (value : Bytes) (conf : RawConf) : Except Bytes RawConf :=
  if (ascii "file:").isPrefixOf value then
    match env.readFile (value.drop 5) with
    | none => .error []
    | some contents => .ok { conf with redisPassword := some (chomp contents) }
  else .ok { conf with redisPassword := some value }

/-- `ngx_strcmp` stops at a NUL. -/
def confSetJwtAlg (value : Bytes) (conf : RawConf) : Except Bytes RawConf :=
  if value.takeWhile (· ≠ 0) = ascii "HS256" then .ok { conf with jwtAlg := some .hs256 }
  else if value.takeWhile (· ≠ 0) = ascii "RS256" then .ok { conf with jwtAlg := some .rs256 }
  else if value.takeWhile (· ≠ 0) = ascii "ES256" then .ok { conf with jwtAlg := some .es256 }
  else .error (ascii "must be one of HS256, RS256, ES256")

def confSetChallengeHandler (core : SlotCore) (value : Bytes) (block : BlockConf) : Except Bytes BlockConf := do
  let flag ← core.flagSlot block.conf.challengeHandler value
  return { conf := { block.conf with challengeHandler := some flag }
           handler := if flag then some .challengeContent else block.handler }

def confSetVerifyHandler (core : SlotCore) (value : Bytes) (block : BlockConf) : Except Bytes BlockConf := do
  let flag ← core.flagSlot block.conf.verifyHandler value
  return { conf := { block.conf with verifyHandler := some flag }
           handler := if flag then some .verifyContent else block.handler }

/-- A setter of the core on its slot. -/
def slotSet {α : Type} (set : Option α → Bytes → Except Bytes α) (content : Option α) (value : Bytes) :
    Except Bytes (Option α) := (set content value).map some

structure Directive where
  name : DirectiveName
  args : List Bytes
deriving DecidableEq

/-- The command table, with the arguments that the core has counted. -/
def confSet (core : SlotCore) (env : ConfEnv) (directive : Directive) (block : BlockConf) : Except Bytes BlockConf :=
  let conf := block.conf
  let value := directive.args.headD []
  let stored (result : Except Bytes RawConf) : Except Bytes BlockConf := result.map fun conf => { block with conf }
  match directive.name with
  | .rpId => stored ((slotSet core.strSlot conf.rpId value).map fun rpId => { conf with rpId })
  | .rpName => stored ((slotSet core.strSlot conf.rpName value).map fun rpName => { conf with rpName })
  | .origin => stored (.ok (confSetOrigin directive.args conf))
  | .challengeTtl => stored ((slotSet core.secSlot conf.challengeTtl value).map fun challengeTtl => { conf with challengeTtl })
  | .userVerification =>
      stored ((slotSet (core.enumSlot uvEnum) conf.userVerification value).map fun userVerification =>
        { conf with userVerification })
  | .challengeRateLimit => stored (confSetRateLimit core.toConfCore ⟨value, directive.args.tail.head?⟩ conf)
  | .redis => stored (confSetRedis core.toConfCore value conf)
  | .redisPassword => stored (confSetRedisPassword env value conf)
  | .redisDb => stored ((slotSet core.numSlot conf.redisDb value).map fun redisDb => { conf with redisDb })
  | .redisTimeout => stored ((slotSet core.msecSlot conf.redisTimeout value).map fun redisTimeout => { conf with redisTimeout })
  | .redisKeyPrefix =>
      stored ((slotSet core.strSlot conf.redisKeyPrefix value).map fun redisKeyPrefix => { conf with redisKeyPrefix })
  | .jwtSecretFile =>
      stored ((slotSet core.strSlot conf.jwtSecretFile value).map fun jwtSecretFile => { conf with jwtSecretFile })
  | .jwtAlg => stored (confSetJwtAlg value conf)
  | .jwtTtl => stored ((slotSet core.secSlot conf.jwtTtl value).map fun jwtTtl => { conf with jwtTtl })
  | .cookieName => stored ((slotSet core.strSlot conf.cookieName value).map fun cookieName => { conf with cookieName })
  | .cookieDomain => stored ((slotSet core.strSlot conf.cookieDomain value).map fun cookieDomain => { conf with cookieDomain })
  | .cookiePath => stored ((slotSet core.strSlot conf.cookiePath value).map fun cookiePath => { conf with cookiePath })
  | .cookieSecure => stored ((slotSet core.flagSlot conf.cookieSecure value).map fun cookieSecure => { conf with cookieSecure })
  | .cookieSamesite =>
      stored ((slotSet (core.enumSlot samesiteEnum) conf.cookieSamesite value).map fun cookieSamesite =>
        { conf with cookieSamesite })
  | .cloneDetection =>
      stored ((slotSet (core.enumSlot cloneEnum) conf.cloneDetection value).map fun cloneDetection =>
        { conf with cloneDetection })
  | .auth => stored ((slotSet core.flagSlot conf.auth value).map fun auth => { conf with auth })
  | .signinUrl => stored ((slotSet core.strSlot conf.signinUrl value).map fun signinUrl => { conf with signinUrl })
  | .setHeader => stored (confSetSetHeader core value (directive.args.tail.headD []) conf)
  | .challengeHandler => confSetChallengeHandler core value block
  | .verifyHandler => confSetVerifyHandler core value block

/-- The checks that the core makes with the table before it calls a setter. -/
def confHandler (core : SlotCore) (env : ConfEnv) (level : Level) (directive : Directive) (block : BlockConf) :
    Except Bytes BlockConf :=
  if ¬ directive.name.allowed level then .error (ascii "directive is not allowed here")
  else if ¬ directive.name.arity.admits directive.args.length then .error (ascii "invalid number of arguments")
  else confSet core env directive block

/-- All directives of a block, in the order they are written. -/
def confBlock (core : SlotCore) (env : ConfEnv) (level : Level) (directives : List Directive) : Option BlockConf :=
  runAll (fun directive block => (confHandler core env level directive block).toOption) directives
    ⟨createLocConf, none⟩

/-! The two content handlers share a slot of the core, and the rate limit and the address of Redis have
several fields each.
-/

inductive Slot where
  | rpId
  | rpName
  | challengeTtl
  | userVerification
  | redisPassword
  | redisDb
  | redisTimeout
  | redisKeyPrefix
  | jwtSecretFile
  | jwtAlg
  | jwtTtl
  | cookieName
  | cookieDomain
  | cookiePath
  | cookieSecure
  | cookieSamesite
  | cloneDetection
  | auth
  | signinUrl
  | origins
  | setHeaders
  | rateLimit
  | redis
  | handlers
  | loadedKey
deriving DecidableEq

abbrev Slot.Content : Slot → Type
  | .rpId | .rpName | .redisPassword | .redisKeyPrefix | .jwtSecretFile | .cookieName | .cookieDomain | .cookiePath | .signinUrl => Option Bytes
  | .challengeTtl | .jwtTtl => Option Int64
  | .userVerification => Option UserVerification
  | .redisDb | .redisTimeout => Option UInt64
  | .jwtAlg => Option JwtAlg
  | .cookieSecure | .auth => Option Bool
  | .cookieSamesite => Option SameSite
  | .cloneDetection => Option CloneDetection
  | .origins => Option (Option (List Bytes))
  | .setHeaders => Option (Option (List SetHeader))
  | .rateLimit => Option UInt64 × Option Int64
  | .redis => Option Bytes × Option Bytes × Option Int64
  | .handlers => Option Bool × Option Bool × Option ContentHandler
  | .loadedKey => Option Bytes × Option Bytes

def BlockConf.slots (block : BlockConf) : (slot : Slot) → slot.Content
  | .rpId => block.conf.rpId
  | .rpName => block.conf.rpName
  | .challengeTtl => block.conf.challengeTtl
  | .userVerification => block.conf.userVerification
  | .redisPassword => block.conf.redisPassword
  | .redisDb => block.conf.redisDb
  | .redisTimeout => block.conf.redisTimeout
  | .redisKeyPrefix => block.conf.redisKeyPrefix
  | .jwtSecretFile => block.conf.jwtSecretFile
  | .jwtAlg => block.conf.jwtAlg
  | .jwtTtl => block.conf.jwtTtl
  | .cookieName => block.conf.cookieName
  | .cookieDomain => block.conf.cookieDomain
  | .cookiePath => block.conf.cookiePath
  | .cookieSecure => block.conf.cookieSecure
  | .cookieSamesite => block.conf.cookieSamesite
  | .cloneDetection => block.conf.cloneDetection
  | .auth => block.conf.auth
  | .signinUrl => block.conf.signinUrl
  | .origins => block.conf.origins
  | .setHeaders => block.conf.setHeaders
  | .rateLimit => (block.conf.rateLimitMax, block.conf.rateLimitWindow)
  | .redis => (block.conf.redisUrl, block.conf.redisHost, block.conf.redisPort)
  | .handlers => (block.conf.challengeHandler, block.conf.verifyHandler, block.handler)
  | .loadedKey => (block.conf.jwtSecret, block.conf.jwtPubPem)

def BlockConf.assemble (slots : (slot : Slot) → slot.Content) : BlockConf where
  conf :=
    { rpId := slots .rpId
      rpName := slots .rpName
      origins := slots .origins
      challengeTtl := slots .challengeTtl
      userVerification := slots .userVerification
      rateLimitMax := (slots .rateLimit).1
      rateLimitWindow := (slots .rateLimit).2
      redisUrl := (slots .redis).1
      redisHost := (slots .redis).2.1
      redisPort := (slots .redis).2.2
      redisPassword := slots .redisPassword
      redisDb := slots .redisDb
      redisTimeout := slots .redisTimeout
      redisKeyPrefix := slots .redisKeyPrefix
      jwtSecretFile := slots .jwtSecretFile
      jwtSecret := (slots .loadedKey).1
      jwtPubPem := (slots .loadedKey).2
      jwtAlg := slots .jwtAlg
      jwtTtl := slots .jwtTtl
      cookieName := slots .cookieName
      cookieDomain := slots .cookieDomain
      cookiePath := slots .cookiePath
      cookieSecure := slots .cookieSecure
      cookieSamesite := slots .cookieSamesite
      cloneDetection := slots .cloneDetection
      auth := slots .auth
      signinUrl := slots .signinUrl
      setHeaders := slots .setHeaders
      challengeHandler := (slots .handlers).1
      verifyHandler := (slots .handlers).2.1 }
  handler := (slots .handlers).2.2

def blockView : View BlockConf Slot.Content where
  slots := BlockConf.slots
  assemble := BlockConf.assemble
  slots_assemble family := by
    funext slot
    cases slot <;> rfl

/-- The slot of a directive. -/
def DirectiveName.slot : DirectiveName → Slot
  | .rpId => .rpId
  | .rpName => .rpName
  | .origin => .origins
  | .challengeTtl => .challengeTtl
  | .userVerification => .userVerification
  | .challengeRateLimit => .rateLimit
  | .redis => .redis
  | .redisPassword => .redisPassword
  | .redisDb => .redisDb
  | .redisTimeout => .redisTimeout
  | .redisKeyPrefix => .redisKeyPrefix
  | .jwtSecretFile => .jwtSecretFile
  | .jwtAlg => .jwtAlg
  | .jwtTtl => .jwtTtl
  | .cookieName => .cookieName
  | .cookieDomain => .cookieDomain
  | .cookiePath => .cookiePath
  | .cookieSecure => .cookieSecure
  | .cookieSamesite => .cookieSamesite
  | .cloneDetection => .cloneDetection
  | .auth => .auth
  | .signinUrl => .signinUrl
  | .setHeader => .setHeaders
  | .challengeHandler => .handlers
  | .verifyHandler => .handlers

/-- A setter that reads and writes its slot acts on it. -/
theorem acts_of_set {slot : Slot} {step : BlockConf → Except Bytes BlockConf}
    (set : slot.Content → Except Bytes slot.Content)
    (does : ∀ block, step block = (set (block.slots slot)).map (blockView.write block slot)) :
    blockView.ActsOn slot fun block => (step block).toOption := by
  refine ⟨fun content => (set content).toOption, fun block => ?_⟩
  change (step block).toOption = ((set (block.slots slot)).toOption).map (blockView.write block slot)
  rw [does]
  cases set (block.slots slot) with
  | error message => rfl
  | ok content => rfl

theorem except_map_map {ε α β γ : Type} (result : Except ε α) (f : α → β) (g : β → γ) :
    (result.map f).map g = result.map (g ∘ f) := by
  cases result with
  | error failure => rfl
  | ok value => rfl

/-- The setter reads and writes the two fields of the limit. -/
theorem confSetRateLimit_frame (core : ConfCore) (directive : RateLimitDirective) (conf : RawConf) :
    confSetRateLimit core directive conf = (confSetRateLimit core directive
      { createLocConf with rateLimitMax := conf.rateLimitMax, rateLimitWindow := conf.rateLimitWindow }).map
        fun read => { conf with rateLimitMax := read.rateLimitMax, rateLimitWindow := read.rateLimitWindow } := by
  simp only [confSetRateLimit]
  split_ifs
  · rfl
  cases core.atoi directive.value with
  | none => rfl
  | some max =>
      simp only
      split_ifs
      · rfl
      cases directive.window with
      | none => rfl
      | some text =>
          simp only
          cases core.parseTime text with
          | none => rfl
          | some window =>
              simp only
              split_ifs <;> rfl

/-- The setter reads and writes the three fields of the address. -/
theorem confSetRedis_frame (core : ConfCore) (value : Bytes) (conf : RawConf) :
    confSetRedis core value conf = (confSetRedis core value
      { createLocConf with
        redisUrl := conf.redisUrl, redisHost := conf.redisHost, redisPort := conf.redisPort }).map
        fun read =>
          { conf with redisUrl := read.redisUrl, redisHost := read.redisHost, redisPort := read.redisPort } := by
  simp only [confSetRedis]
  split_ifs
  · rfl
  cases splitFirst 58 value with
  | none => rfl
  | some parts =>
      simp only
      split_ifs
      · rfl
      cases core.atoi parts.2 with
      | none => rfl
      | some port =>
          simp only
          split_ifs <;> rfl

theorem confSet_acts (core : SlotCore) (env : ConfEnv) (directive : Directive) :
    blockView.ActsOn directive.name.slot fun block => (confSet core env directive block).toOption := by
  obtain ⟨name, args⟩ := directive
  cases name with
  | rpId =>
      exact acts_of_set (fun content => slotSet core.strSlot content _) fun block => except_map_map ..
  | rpName =>
      exact acts_of_set (fun content => slotSet core.strSlot content _) fun block => except_map_map ..
  | origin =>
      exact acts_of_set (fun content => .ok (some (some ((content.getD none).getD [] ++ args)))) fun block => rfl
  | challengeTtl =>
      exact acts_of_set (fun content => slotSet core.secSlot content _) fun block => except_map_map ..
  | userVerification =>
      exact acts_of_set (fun content => slotSet (core.enumSlot uvEnum) content _) fun block => except_map_map ..
  | challengeRateLimit =>
      refine acts_of_set (fun content => (confSetRateLimit core.toConfCore ⟨args.headD [], args.tail.head?⟩
        { createLocConf with rateLimitMax := content.1, rateLimitWindow := content.2 }).map fun conf =>
          (conf.rateLimitMax, conf.rateLimitWindow)) fun block => ?_
      simp only [confSet]
      rw [confSetRateLimit_frame _ _ block.conf]
      change Except.map _ (Except.map _ _) = Except.map _ (Except.map _ (confSetRateLimit core.toConfCore _
        { createLocConf with
          rateLimitMax := block.conf.rateLimitMax, rateLimitWindow := block.conf.rateLimitWindow }))
      generalize confSetRateLimit core.toConfCore _ _ = result
      cases result with
      | error message => rfl
      | ok read => rfl
  | redis =>
      refine acts_of_set (fun content => (confSetRedis core.toConfCore (args.headD [])
        { createLocConf with redisUrl := content.1, redisHost := content.2.1, redisPort := content.2.2 }).map
          fun conf => (conf.redisUrl, conf.redisHost, conf.redisPort)) fun block => ?_
      simp only [confSet]
      rw [confSetRedis_frame _ _ block.conf]
      change Except.map _ (Except.map _ _) = Except.map _ (Except.map _ (confSetRedis core.toConfCore _
        { createLocConf with
          redisUrl := block.conf.redisUrl, redisHost := block.conf.redisHost, redisPort := block.conf.redisPort }))
      generalize confSetRedis core.toConfCore _ _ = result
      cases result with
      | error message => rfl
      | ok read => rfl
  | redisPassword =>
      refine acts_of_set (fun content => (confSetRedisPassword env (args.headD [])
        { createLocConf with redisPassword := content }).map RawConf.redisPassword) fun block => ?_
      simp only [confSet, confSetRedisPassword]
      split_ifs
      · cases env.readFile ((args.headD []).drop 5) <;> rfl
      · rfl
  | redisDb =>
      exact acts_of_set (fun content => slotSet core.numSlot content _) fun block => except_map_map ..
  | redisTimeout =>
      exact acts_of_set (fun content => slotSet core.msecSlot content _) fun block => except_map_map ..
  | redisKeyPrefix =>
      exact acts_of_set (fun content => slotSet core.strSlot content _) fun block => except_map_map ..
  | jwtSecretFile =>
      exact acts_of_set (fun content => slotSet core.strSlot content _) fun block => except_map_map ..
  | jwtAlg =>
      refine acts_of_set (fun content => (confSetJwtAlg (args.headD [])
        { createLocConf with jwtAlg := content }).map RawConf.jwtAlg) fun block => ?_
      simp only [confSet, confSetJwtAlg]
      split_ifs <;> rfl
  | jwtTtl =>
      exact acts_of_set (fun content => slotSet core.secSlot content _) fun block => except_map_map ..
  | cookieName =>
      exact acts_of_set (fun content => slotSet core.strSlot content _) fun block => except_map_map ..
  | cookieDomain =>
      exact acts_of_set (fun content => slotSet core.strSlot content _) fun block => except_map_map ..
  | cookiePath =>
      exact acts_of_set (fun content => slotSet core.strSlot content _) fun block => except_map_map ..
  | cookieSecure =>
      exact acts_of_set (fun content => slotSet core.flagSlot content _) fun block => except_map_map ..
  | cookieSamesite =>
      exact acts_of_set (fun content => slotSet (core.enumSlot samesiteEnum) content _) fun block => except_map_map ..
  | cloneDetection =>
      exact acts_of_set (fun content => slotSet (core.enumSlot cloneEnum) content _) fun block => except_map_map ..
  | auth =>
      exact acts_of_set (fun content => slotSet core.flagSlot content _) fun block => except_map_map ..
  | signinUrl =>
      exact acts_of_set (fun content => slotSet core.strSlot content _) fun block => except_map_map ..
  | setHeader =>
      refine acts_of_set (fun content => (confSetSetHeader core (args.headD []) (args.tail.headD [])
        { createLocConf with setHeaders := content }).map RawConf.setHeaders) fun block => ?_
      simp only [confSet, confSetSetHeader]
      split_ifs <;> rfl
  | challengeHandler =>
      refine acts_of_set (fun content => (core.flagSlot content.1 (args.headD [])).map fun flag =>
        (some flag, content.2.1, if flag then some .challengeContent else content.2.2)) fun block => ?_
      change confSetChallengeHandler core (args.headD []) block =
        ((core.flagSlot block.conf.challengeHandler (args.headD [])).map _).map _
      unfold confSetChallengeHandler
      cases core.flagSlot block.conf.challengeHandler (args.headD []) <;> rfl
  | verifyHandler =>
      refine acts_of_set (fun content => (core.flagSlot content.2.1 (args.headD [])).map fun flag =>
        (content.1, some flag, if flag then some .verifyContent else content.2.2)) fun block => ?_
      change confSetVerifyHandler core (args.headD []) block =
        ((core.flagSlot block.conf.verifyHandler (args.headD [])).map _).map _
      unfold confSetVerifyHandler
      cases core.flagSlot block.conf.verifyHandler (args.headD []) <;> rfl

theorem confHandler_acts (core : SlotCore) (env : ConfEnv) (level : Level) (directive : Directive) :
    blockView.ActsOn directive.name.slot fun block => (confHandler core env level directive block).toOption := by
  unfold confHandler
  by_cases misplaced : ¬ directive.name.allowed level
  · simp only [if_pos misplaced]
    exact ⟨fun _ => none, fun _ => rfl⟩
  · simp only [if_neg misplaced]
    by_cases miscounted : ¬ directive.name.arity.admits directive.args.length
    · simp only [if_pos miscounted]
      exact ⟨fun _ => none, fun _ => rfl⟩
    · simp only [if_neg miscounted]
      exact confSet_acts core env directive

/-- The order of directives matters only between those that write the same slot: repeated ones, and
the two content handlers. -/
theorem block_order_immaterial (core : SlotCore) (env : ConfEnv) (level : Level) (first second : List Directive)
    (same : ∀ slot, first.filter (·.name.slot = slot) = second.filter (·.name.slot = slot)) :
    confBlock core env level first = confBlock core env level second := by
  refine runAll_eq (fun directive other block different => ?_) same _
  exact (confHandler_acts core env level directive).swap (confHandler_acts core env level other) different block

namespace Sample

def noFiles : ConfEnv := ⟨fun _ => none, fun _ => none⟩

/-- Decimal digits, without overflow. -/
def atoi (text : Bytes) : Option Int64 :=
  if text ≠ [] ∧ text.all Strtol.isDigit ∧ Decimal.valueFrom 0 text ≤ 9223372036854775807 then
    some (Int64.ofNat (Decimal.valueFrom 0 text))
  else none

def once {α : Type} (read : Bytes → Option α) (content : Option α) (value : Bytes) : Except Bytes α :=
  if content.isSome then .error (ascii "is duplicate")
  else
    match read value with
    | none => .error (ascii "invalid value")
    | some result => .ok result

def flagOf (value : Bytes) : Option Bool :=
  if value = ascii "on" then some true else if value = ascii "off" then some false else none

def slotCore : SlotCore where
  atoi := atoi
  parseTime := atoi
  strSlot := once some
  flagSlot := once flagOf
  numSlot := once fun value => (atoi value).map Int64.toUInt64
  secSlot := once atoi
  msecSlot := once fun value => (atoi value).map Int64.toUInt64
  enumSlot table := once (table.lookup ·)
  compiles _ := true

def redisFirst : List Directive :=
  [⟨.redis, [ascii "127.0.0.1:6379"]⟩, ⟨.origin, [ascii "https://a.example", ascii "https://b.example"]⟩,
    ⟨.jwtAlg, [ascii "RS256"]⟩, ⟨.origin, [ascii "https://c.example"]⟩, ⟨.jwtAlg, [ascii "ES256"]⟩]

def redisLast : List Directive :=
  [⟨.jwtAlg, [ascii "RS256"]⟩, ⟨.origin, [ascii "https://a.example", ascii "https://b.example"]⟩,
    ⟨.jwtAlg, [ascii "ES256"]⟩, ⟨.origin, [ascii "https://c.example"]⟩, ⟨.redis, [ascii "127.0.0.1:6379"]⟩]

end Sample

theorem redis_first_or_last :
    confBlock Sample.slotCore Sample.noFiles .server Sample.redisFirst =
      confBlock Sample.slotCore Sample.noFiles .server Sample.redisLast := by
  refine block_order_immaterial Sample.slotCore Sample.noFiles .server Sample.redisFirst Sample.redisLast ?_
  intro slot
  cases slot <;> rfl

/-- Of two content handlers that are both on, the last one serves the location. -/
example : (confBlock Sample.slotCore Sample.noFiles .location
    [⟨.challengeHandler, [ascii "on"]⟩, ⟨.verifyHandler, [ascii "on"]⟩]).map BlockConf.handler ≠
      (confBlock Sample.slotCore Sample.noFiles .location
        [⟨.verifyHandler, [ascii "on"]⟩, ⟨.challengeHandler, [ascii "on"]⟩]).map BlockConf.handler := by
  decide

end AuthWebauthn
