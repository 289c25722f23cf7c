/-
The configuration endpoints of `web_config_api.cpp`: reading the document with its
revision, and the guarded whole-config write.
-/
import RfIrBlaster.ConfigCodec
import RfIrBlaster.StateMachine

namespace RfIrBlaster

def maxBody : Nat := maxConfigBytes + 2048

/-- `isspace` of the C locale. -/
def isSpaceByte (c : UInt8) : Bool :=
  c == 32 || (9 ≤ c && c ≤ 13)

/-- `strtoul(s, nullptr, 10)` with a 32-bit `unsigned long`: out of range saturates. -/
def strtoul (s : Bytes) : UInt32 :=
  let t := s.dropWhile isSpaceByte
  let digits := (if t.head? = some 45 ∨ t.head? = some 43 then t.tail else t).takeWhile isDigitByte
  let value := Json.digitsValue digits
  if 0xFFFFFFFF < value then 0xFFFFFFFF
  else if t.head? = some 45 then -UInt32.ofNat value
  else UInt32.ofNat value

/-- `val` is the value of the query key `rev`, when there is one that fits the buffer. -/
def queryRev (val : Option Bytes) : UInt32 :=
  match val with
  | none => 0xFFFFFFFF
  | some text => strtoul text

/-- A revision written in decimal is read back. -/
theorem strtoul_natText (r : UInt32) : strtoul (Json.natText r.toNat) = r := by
  have hdigits : ∀ c ∈ Json.natText r.toNat, isDigitByte c = true :=
    Json.natTextAux_digits r.toNat r.toNat
  obtain ⟨c, cs, htext, hfirst⟩ := Json.natText_head r.toNat
  have hrange := (Json.isDigit_iff c).mp hfirst
  have hsign : ∀ b : UInt8, b.toNat < 48 → (c :: cs).head? ≠ some b := by
    intro b hb heq
    rw [Option.some.inj heq] at hrange
    omega
  have hspace : (c :: cs).dropWhile isSpaceByte = c :: cs := by
    apply List.dropWhile_cons_of_neg
    unfold isSpaceByte
    simp only [Bool.or_eq_true, beq_iff_eq, Bool.and_eq_true, decide_eq_true_eq,
      UInt8.le_iff_toNat_le, ← UInt8.toNat_inj]
    change ¬ (c.toNat = 32 ∨ 9 ≤ c.toNat ∧ c.toNat ≤ 13)
    omega
  have hall : (c :: cs).takeWhile isDigitByte = c :: cs := by
    rw [List.takeWhile_eq_self_iff, ← htext]
    exact hdigits
  have hvalue : Json.digitsValue (c :: cs) = r.toNat := by
    rw [← htext]
    exact Json.natText_value r.toNat
  have hlt := r.toNat_lt
  have hminus := hsign 45 (by decide)
  have hplus := hsign 43 (by decide)
  unfold strtoul
  simp only [htext, hspace, hminus, hplus, or_self, if_false, hall, hvalue]
  rw [if_neg (by omega)]
  exact UInt32.ofNat_toNat

/-- Network bindings are read at startup. -/
def requiresRestart (oldS newS : Settings) : Bool :=
  oldS.https != newS.https || oldS.listenPort != newS.listenPort ||
    oldS.trustedProxy != newS.trustedProxy || oldS.canonicalDomain != newS.canonicalDomain

/-- What the handlers read of a request; `recvFails` when the socket does. -/
structure HttpRequest where
  session : Bool := true
  csrf : Bool := true
  rev : Option Bytes := none
  body : Bytes := []
  recvFails : Bool := false
deriving DecidableEq, Repr

def readBody (req : HttpRequest) : Option Bytes :=
  if maxBody < req.body.length then none
  else if req.recvFails then none
  else some req.body

/-- The globals of the configuration API. -/
structure ApiState (σ : Type) where
  config : Config
  rev : UInt32
  store : σ
deriving DecidableEq, Repr

structure Response where
  status : String
  body : Bytes
deriving DecidableEq, Repr

def errorResponse (status error : String) : Response :=
  { status := status
    body := ascii ("\x7b\"ok\":false,\"error\":\"" ++ error ++ "\"\x7d") }

inductive PostResult where
  | auth
  | size
  | forbidden
  | conflict (rev : UInt32)
  | parse
  | invalid
  | store
  | written (rev : UInt32) (restart : Bool) (config : Bytes)
deriving DecidableEq, Repr

def PostResult.accepted : PostResult → Bool
  | .written _ _ _ => true
  | _ => false

/-- What is sent for each outcome. -/
def PostResult.response : PostResult → Response
  | .auth => errorResponse "401 Unauthorized" "auth"
  | .size => errorResponse "400 Bad Request" "size"
  | .forbidden => errorResponse "403 Forbidden" "forbidden"
  | .conflict rev =>
      { status := "200 OK"
        body := ascii "\x7b\"conflict\":true,\"rev\":" ++ Json.natText rev.toNat ++ ascii "\x7d" }
  | .parse => errorResponse "400 Bad Request" "parse"
  | .invalid => errorResponse "400 Bad Request" "invalid"
  | .store => errorResponse "500 Internal Server Error" "store"
  | .written rev restart config =>
      { status := "200 OK"
        body := ascii "\x7b\"conflict\":false,\"rev\":" ++ Json.natText rev.toNat ++
          ascii ",\"restart\":" ++ ascii (if restart then "true" else "false") ++
          ascii ",\"config\":" ++ config ++ ascii "\x7d" }

inductive GetResult where
  | auth
  | encode
  | served (config : Bytes) (rev : UInt32)
deriving DecidableEq, Repr

def GetResult.response : GetResult → Response
  | .auth => errorResponse "401 Unauthorized" "auth"
  | .encode => errorResponse "500 Internal Server Error" "encode"
  | .served config rev =>
      { status := "200 OK"
        body := ascii "\x7b\"config\":" ++ config ++ ascii ",\"rev\":" ++
          Json.natText rev.toNat ++ ascii "\x7d" }

section Handlers

variable {σ : Type}

def configApiBegin (cfg : Config) (store : σ) : ApiState σ :=
  { config := cfg, rev := 1, store := store }

/-- `setup()`: the configuration is loaded and seeds the API. -/
def boot (A : ArduinoJson) (S : BlobStore σ) (store : σ) : ApiState σ :=
  let res := load A S store
  configApiBegin res.1.config res.2

def handleGetConfig (A : ArduinoJson) (req : HttpRequest) (s : ApiState σ) : GetResult :=
  if !req.session then .auth
  else
    match toJson A s.config with
    | none => .encode
    | some cfg => .served cfg s.rev

def handlePostConfig (A : ArduinoJson) (S : BlobStore σ) (req : HttpRequest) (s : ApiState σ) :
    PostResult × ApiState σ :=
  if !req.session then (.auth, s)
  else
    match readBody req with
    | none => (.size, s)
    | some body =>
        if !req.csrf then (.forbidden, s)
        else if queryRev req.rev ≠ s.rev then (.conflict s.rev, s)
        else
          match fromJson A body with
          | none => (.parse, s)
          | some incoming =>
              if validate incoming ≠ .ok then (.invalid, s)
              else
                let saved := save A S s.store incoming
                if !saved.1 then (.store, { s with store := saved.2 })
                else
                  let restart := requiresRestart s.config.settings incoming.settings
                  let newRev := s.rev + 1
                  (.written newRev restart ((toJson A incoming).getD []),
                    { config := incoming, rev := newRev, store := saved.2 })

/-- Everything a POST can do: it passes every check and is written, or it leaves
the configuration and the revision and at most tries the store. -/
theorem handlePostConfig_cases (A : ArduinoJson) (S : BlobStore σ) (req : HttpRequest)
    (s : ApiState σ) :
    (∃ incoming, req.session = true ∧ req.csrf = true ∧ readBody req = some req.body ∧
        queryRev req.rev = s.rev ∧ fromJson A req.body = some incoming ∧
        validate incoming = .ok ∧ (save A S s.store incoming).1 = true ∧
        handlePostConfig A S req s =
          (.written (s.rev + 1) (requiresRestart s.config.settings incoming.settings)
              ((toJson A incoming).getD []),
            { config := incoming, rev := s.rev + 1, store := (save A S s.store incoming).2 })) ∨
      ((handlePostConfig A S req s).1.accepted = false ∧
        ((handlePostConfig A S req s).2 = s ∨
          ∃ incoming, (save A S s.store incoming).1 = false ∧
            (handlePostConfig A S req s).2 =
              { s with store := (save A S s.store incoming).2 })) := by
  unfold handlePostConfig
  cases hsession : req.session with
  | false => exact Or.inr ⟨rfl, Or.inl rfl⟩
  | true =>
      cases hbody : readBody req with
      | none => exact Or.inr ⟨rfl, Or.inl rfl⟩
      | some body =>
          obtain rfl : req.body = body := by
            unfold readBody at hbody
            split_ifs at hbody
            exact Option.some.inj hbody
          cases hcsrf : req.csrf with
          | false => exact Or.inr ⟨rfl, Or.inl rfl⟩
          | true =>
              by_cases hrev : queryRev req.rev = s.rev
              · cases hparse : fromJson A req.body with
                | none =>
                    right
                    simp [hrev, hparse, PostResult.accepted]
                | some incoming =>
                    by_cases hvalid : validate incoming = .ok
                    · cases hsave : (save A S s.store incoming).1 with
                      | false =>
                          right
                          refine ⟨?_, Or.inr ⟨incoming, hsave, ?_⟩⟩
                          · simp [hrev, hparse, hvalid, hsave, PostResult.accepted]
                          · simp [hrev, hparse, hvalid, hsave]
                      | true =>
                          left
                          refine ⟨incoming, rfl, rfl, rfl, hrev, rfl, hvalid, hsave, ?_⟩
                          simp [hrev, hparse, hvalid, hsave]
                    · right
                      simp [hrev, hparse, hvalid, PostResult.accepted]
              · right
                simp [hrev, PostResult.accepted]

/-- An authenticated POST under another revision is answered with a conflict. -/
theorem stale_post_conflicts (A : ArduinoJson) (S : BlobStore σ) {req : HttpRequest}
    {s : ApiState σ} {body : Bytes} (hsession : req.session = true) (hcsrf : req.csrf = true)
    (hbody : readBody req = some body) (hrev : queryRev req.rev ≠ s.rev) :
    handlePostConfig A S req s = (.conflict s.rev, s) := by
  unfold handlePostConfig
  simp [hsession, hbody, hcsrf, hrev]

/-- A POST that passes every check is accepted once the store takes it. -/
theorem fitting_post_accepted (A : ArduinoJson) (S : BlobStore σ) {req : HttpRequest}
    {s : ApiState σ} {body : Bytes} {incoming : Config} (hsession : req.session = true)
    (hcsrf : req.csrf = true) (hbody : readBody req = some body)
    (hrev : queryRev req.rev = s.rev) (hparse : fromJson A body = some incoming)
    (hvalid : validate incoming = .ok) (hsaved : (save A S s.store incoming).1 = true) :
    (handlePostConfig A S req s).1.accepted = true := by
  unfold handlePostConfig
  simp [hsession, hbody, hcsrf, hrev, hparse, hvalid, hsaved, PostResult.accepted]

@[simp]
theorem boot_config (A : ArduinoJson) (S : BlobStore σ) (store : σ) :
    (boot A S store).config = (load A S store).1.config :=
  rfl

@[simp]
theorem boot_rev (A : ArduinoJson) (S : BlobStore σ) (store : σ) : (boot A S store).rev = 1 :=
  rfl

end Handlers

section Posts

variable {σ : Type}

/-- POSTs handled one after the other. -/
def posting (A : ArduinoJson) (S : BlobStore σ) (start : ApiState σ) :
    StateMachine (ApiState σ) HttpRequest where
  init := start
  step s req := (handlePostConfig A S req s).2

/-- Some POST of the sequence was accepted. -/
def SomeAccepted (A : ArduinoJson) (S : BlobStore σ) (start : ApiState σ)
    (posts : List HttpRequest) : Prop :=
  ∃ pre req post, posts = pre ++ req :: post ∧
    (handlePostConfig A S req ((posting A S start).run pre)).1.accepted = true

theorem SomeAccepted.concat {A : ArduinoJson} {S : BlobStore σ} {start : ApiState σ}
    {posts : List HttpRequest} {req : HttpRequest}
    (h : SomeAccepted A S start (posts ++ [req])) :
    SomeAccepted A S start posts ∨
      (handlePostConfig A S req ((posting A S start).run posts)).1.accepted = true := by
  obtain ⟨pre, earlier, post, heq, haccepted⟩ := h
  rcases StateMachine.concat_eq_append_cons heq with ⟨rfl, rfl⟩ | ⟨front, hfront⟩
  · exact Or.inr haccepted
  · exact Or.inl ⟨pre, earlier, front, hfront, haccepted⟩

/-- The configuration in RAM is the one a reboot would load. -/
def Persisted (A : ArduinoJson) (S : BlobStore σ) (s : ApiState σ) : Prop :=
  (load A S s.store).1.status = .ok ∧ (load A S s.store).1.config = s.config

variable {A : ArduinoJson} {S : BlobStore σ}

/-- An accepted POST is persisted exactly when its body kept the names apart. -/
theorem accepted_post_persisted_iff (hA : A.Lawful) (hS : S.Lawful) {req : HttpRequest}
    {s : ApiState σ} (haccepted : (handlePostConfig A S req s).1.accepted = true) :
    Persisted A S (handlePostConfig A S req s).2 ↔ BodyNamesDistinct A req.body := by
  rcases handlePostConfig_cases A S req s with hwritten | ⟨hrejected, -⟩
  · obtain ⟨incoming, -, -, -, -, hparse, hvalid, hsaved, heq⟩ := hwritten
    obtain ⟨hcanon, hversion, hnames⟩ := fromJson_spec hparse
    rw [heq, ← hnames]
    exact load_save_iff hA hS hvalid hversion hcanon hsaved
  · rw [hrejected] at haccepted
    exact absurd haccepted Bool.false_ne_true

/-- A rejected POST changes neither the configuration nor the stored blob. -/
theorem rejected_post_unchanged (hS : S.Lawful) {req : HttpRequest} {s : ApiState σ}
    (hrejected : (handlePostConfig A S req s).1.accepted = false) :
    (handlePostConfig A S req s).2.config = s.config ∧
      S.get (handlePostConfig A S req s).2.store = S.get s.store := by
  rcases handlePostConfig_cases A S req s with hwritten | ⟨-, hsame | hstore⟩
  · obtain ⟨incoming, -, -, -, -, -, -, -, heq⟩ := hwritten
    rw [heq] at hrejected
    exact absurd hrejected.symm Bool.false_ne_true
  · rw [hsame]
    exact ⟨rfl, rfl⟩
  · obtain ⟨incoming, hfailed, heq⟩ := hstore
    rw [heq]
    exact ⟨rfl, save_rejected hS hfailed⟩

/-- After any POSTs: an accepted one leaves the running configuration loadable exactly
when no device of its body repeats a command name, a rejected one changes nothing, and
where no body repeats a name the running configuration stays the stored one. -/
theorem running_config_loadable_iff (A : ArduinoJson) (hA : A.Lawful) (S : BlobStore σ)
    (hS : S.Lawful) (start : ApiState σ) (posts : List HttpRequest) :
    (∀ req, let s := (posting A S start).run posts
      let res := handlePostConfig A S req s
      (res.1.accepted = true → (Persisted A S res.2 ↔ BodyNamesDistinct A req.body)) ∧
        (res.1.accepted = false →
          res.2.config = s.config ∧ S.get res.2.store = S.get s.store)) ∧
      ((∀ req ∈ posts, BodyNamesDistinct A req.body) → SomeAccepted A S start posts →
        Persisted A S ((posting A S start).run posts)) := by
  refine ⟨fun req => ⟨accepted_post_persisted_iff hA hS, rejected_post_unchanged hS⟩, ?_⟩
  induction posts using List.reverseRecOn with
  | nil =>
      rintro - ⟨pre, req, post, heq, -⟩
      simp at heq
  | append_singleton pre req ih =>
      intro hnames haccepted
      have hearlier : ∀ r ∈ pre, BodyNamesDistinct A r.body := by
        intro r hr
        exact hnames r (List.mem_append_left _ hr)
      rw [StateMachine.run_concat]
      change Persisted A S (handlePostConfig A S req ((posting A S start).run pre)).2
      cases hlast : (handlePostConfig A S req ((posting A S start).run pre)).1.accepted with
      | true =>
          apply (accepted_post_persisted_iff hA hS hlast).mpr
          exact hnames req (by simp)
      | false =>
          obtain ⟨hconfig, hstore⟩ := rejected_post_unchanged hS hlast
          have hbefore : SomeAccepted A S start pre := by
            rcases haccepted.concat with hpre | hreq
            · exact hpre
            · rw [hlast] at hreq
              exact absurd hreq Bool.false_ne_true
          have hload := ih hearlier hbefore
          unfold Persisted at hload ⊢
          rw [load_decode, hstore, hconfig, ← load_decode]
          exact hload

/-- The memory store the concrete runs start from, empty. -/
def emptyDevice : ApiState (Option Bytes) :=
  configApiBegin {} none

def lampPost : HttpRequest :=
  { rev := some (ascii "1"), body := (toJson strictJson remoteConfig).getD [] }

theorem running_config_loadable_iff_lamp :
    Persisted strictJson (memoryBlobStore 20480)
      ((posting strictJson (memoryBlobStore 20480) emptyDevice).run [lampPost]) := by
  have hlamp : ∀ req ∈ [lampPost], BodyNamesDistinct strictJson req.body := by
    intro req hreq
    obtain rfl := List.mem_singleton.mp hreq
    decide +kernel
  have haccepted : SomeAccepted strictJson (memoryBlobStore 20480) emptyDevice [lampPost] :=
    ⟨[], lampPost, [], rfl, by decide +kernel⟩
  exact (running_config_loadable_iff strictJson strictJson_lawful (memoryBlobStore 20480)
    (memoryBlobStore_lawful 20480) emptyDevice [lampPost]).2 hlamp haccepted

/-- Two command keys that differ only after a NUL. -/
def duplicatePost : HttpRequest :=
  { rev := some (ascii "1")
    body := ascii ("\x7b\"nextDeviceId\":3,\"devices\":[\x7b\"id\":2,\"service\":\"Switch\"," ++
      "\"name\":\"Lamp\",\"commands\":\x7b" ++
      "\"on\\u0000a\":\x7b\"kind\":\"rf\",\"freqMHz\":433,\"pulses\":[350,1050]\x7d," ++
      "\"on\\u0000b\":\x7b\"kind\":\"rf\",\"freqMHz\":433,\"pulses\":[700,2100]\x7d\x7d\x7d]\x7d") }

theorem duplicate_names_not_loadable :
    (handlePostConfig strictJson (memoryBlobStore 20480) duplicatePost emptyDevice).1.accepted =
        true ∧
      ¬ Persisted strictJson (memoryBlobStore 20480)
        (handlePostConfig strictJson (memoryBlobStore 20480) duplicatePost emptyDevice).2 := by
  have haccepted : (handlePostConfig strictJson (memoryBlobStore 20480) duplicatePost
      emptyDevice).1.accepted = true := by
    unfold duplicatePost
    simp only [ascii_append]
    repeat rw [ascii_ofList]
    decide +kernel
  have hnames : ¬ BodyNamesDistinct strictJson duplicatePost.body := by
    unfold duplicatePost
    simp only [ascii_append]
    repeat rw [ascii_ofList]
    decide +kernel
  refine ⟨haccepted, ?_⟩
  rw [accepted_post_persisted_iff strictJson_lawful (memoryBlobStore_lawful 20480) haccepted]
  exact hnames

end Posts

end RfIrBlaster
