/-
The `readBody` loops of the three HTTP servers: what they make of a body that arrives
in pieces, with timeouts between them.
-/
import RfIrBlaster.ConfigApi
import RfIrBlaster.Onboarding

namespace RfIrBlaster.Http

/-- What a call of `httpd_req_recv` finds: bytes on the socket, a timeout, or an error. -/
inductive Recv where
  | data (bytes : Bytes)
  | timeout
  | failed
deriving DecidableEq, Repr

/-- What the loop of `readBody` has come to. -/
inductive Reading where
  | waiting
  | refused
  | read (body : Bytes)
deriving DecidableEq, Repr

def Reading.body? : Reading → Option Bytes
  | .read body => some body
  | .waiting | .refused => none

/-- The loop of `readBody`, by what its calls have found so far: `got` is in the buffer, and no
call is given more than what is missing of `total`. -/
def readLoop (total : Nat) : Bytes → List Recv → Reading
  | got, [] => if total ≤ got.length then .read got else .waiting
  | got, recv :: rest =>
      if total ≤ got.length then .read got
      else
        match recv with
        | .timeout => readLoop total got rest
        | .failed => .refused
        | .data bytes =>
            let part := bytes.take (total - got.length)
            if part.isEmpty then .refused else readLoop total (got ++ part) rest

def readBody (maxLen contentLen : Nat) (recvs : List Recv) : Reading :=
  if maxLen < contentLen then .refused else readLoop contentLen [] recvs

/-- `content_len`, and what the calls find in turn until the loop is done: a handler only goes
on once it is, and nothing bounds how many timeouts that takes.  A body over the limit is
refused before the first call, whatever the calls would have found. -/
structure Transfer where
  contentLen : Nat
  recvs : List Recv
  ended : readLoop contentLen [] recvs ≠ .waiting
deriving DecidableEq

/-- `kMaxBody` of the authentication endpoints. -/
def authMaxBody : Nat := 4096

def readAuthBody (t : Transfer) : Option Bytes :=
  (readBody authMaxBody t.contentLen t.recvs).body?

def readConfigBody (t : Transfer) : Option Bytes :=
  (readBody maxBody t.contentLen t.recvs).body?

def readOnboardingBody (t : Transfer) : Option Bytes :=
  (readBody Onboarding.maxBodyLen t.contentLen t.recvs).body?

/-- The bytes that have come before the first error; a call that puts none is one. -/
def received : List Recv → Bytes
  | [] => []
  | .timeout :: rest => received rest
  | .failed :: _ => []
  | .data bytes :: rest => if bytes.isEmpty then [] else bytes ++ received rest

/-- The buffer after the loop, as `out.resize(total)` made it where no byte came. -/
def buffer (t : Transfer) : Bytes :=
  (received t.recvs).take t.contentLen ++
    List.replicate (t.contentLen - (received t.recvs).length) 0

/-- The request the handlers of the configuration API see. -/
def withTransfer (req : HttpRequest) (t : Transfer) : HttpRequest :=
  { req with
    body := buffer t
    recvFails := decide ((received t.recvs).length < t.contentLen) }

/-- A call that gives no bytes is an error, a timeout is not. -/
def Recv.isError : Recv → Bool
  | .data bytes => bytes.isEmpty
  | .timeout => false
  | .failed => true

theorem readLoop_full {total : Nat} {got : Bytes} (h : total ≤ got.length) (recvs : List Recv) :
    readLoop total got recvs = .read got := by
  rw [readLoop.eq_def]
  cases recvs with
  | nil => exact if_pos h
  | cons recv rest => exact if_pos h

/-- The loop has the first `total` bytes of what is received, or met an error before, or is
still waiting. -/
theorem readLoop_eq (total : Nat) (recvs : List Recv) (got : Bytes) (hgot : got.length ≤ total) :
    readLoop total got recvs =
      if total ≤ (got ++ received recvs).length then .read ((got ++ received recvs).take total)
      else if recvs.any Recv.isError then .refused else .waiting := by
  by_cases hfull : total ≤ got.length
  · have hlength : got.length = total := Nat.le_antisymm hgot hfull
    have hlong : total ≤ (got ++ received recvs).length := by
      rw [List.length_append]
      omega
    rw [readLoop_full hfull, if_pos hlong, List.take_append_of_le_length hlength.ge, ← hlength,
      List.take_length]
  · induction recvs generalizing got with
    | nil =>
        rw [readLoop, if_neg hfull, received, List.append_nil, if_neg hfull]
        rfl
    | cons recv rest ih =>
        rw [readLoop.eq_def]
        dsimp only
        rw [if_neg hfull]
        cases recv with
        | timeout => exact ih got hgot hfull
        | failed =>
            have hnone : received (.failed :: rest) = [] := rfl
            simp only [hnone, List.append_nil]
            rw [if_neg hfull]
            rfl
        | data bytes =>
            have hroom : 0 < total - got.length := by omega
            cases bytes with
            | nil =>
                have hnone : received (.data [] :: rest) = [] := rfl
                simp [hnone, hfull, Recv.isError]
            | cons b bytes =>
                have hmore : received (.data (b :: bytes) :: rest) =
                    b :: bytes ++ received rest := rfl
                have herror : (Recv.data (b :: bytes) :: rest).any Recv.isError =
                    rest.any Recv.isError := rfl
                simp only [hmore, herror]
                have hpart : ((b :: bytes).take (total - got.length)).isEmpty = false := by
                  obtain ⟨m, hm⟩ := Nat.exists_eq_succ_of_ne_zero hroom.ne'
                  rw [hm]
                  rfl
                rw [hpart]
                simp only [Bool.false_eq_true, if_false]
                by_cases hlong : total ≤ (got ++ b :: bytes).length
                · -- this call fills the buffer
                  have hcut : got ++ (b :: bytes).take (total - got.length) =
                      (got ++ b :: bytes).take total := by
                    rw [List.take_append, List.take_of_length_le hgot]
                  have hall : total ≤ (got ++ (b :: bytes ++ received rest)).length := by
                    rw [← List.append_assoc, List.length_append]
                    omega
                  rw [hcut, readLoop_full (by rw [List.length_take]; omega), if_pos hall,
                    ← List.append_assoc, List.take_append_of_le_length hlong]
                · have hwhole : (b :: bytes).take (total - got.length) = b :: bytes := by
                    apply List.take_of_length_le
                    rw [List.length_append] at hlong
                    omega
                  rw [hwhole, ih (got ++ b :: bytes) (by omega) hlong, List.append_assoc]

/-- What is read, refused or waited for, by the bytes that have come and the errors met. -/
theorem readBody_eq (maxLen contentLen : Nat) (recvs : List Recv) :
    readBody maxLen contentLen recvs =
      if maxLen < contentLen then .refused
      else if contentLen ≤ (received recvs).length then .read ((received recvs).take contentLen)
      else if recvs.any Recv.isError then .refused else .waiting := by
  unfold readBody
  rw [readLoop_eq _ _ _ (Nat.zero_le _), List.nil_append]

/-- Once the loop is done no further call is made. -/
theorem readLoop_append {total : Nat} {got : Bytes} {recvs : List Recv}
    (hdone : readLoop total got recvs ≠ .waiting) (more : List Recv) :
    readLoop total got (recvs ++ more) = readLoop total got recvs := by
  induction recvs generalizing got with
  | nil =>
      rw [readLoop] at hdone
      split_ifs at hdone with hfull
      · rw [List.nil_append, readLoop_full hfull, readLoop_full hfull]
      · exact absurd rfl hdone
  | cons recv rest ih =>
      by_cases hfull : total ≤ got.length
      · rw [readLoop_full hfull, readLoop_full hfull]
      · rw [List.cons_append, readLoop.eq_def, readLoop.eq_def total got (recv :: rest)]
        rw [readLoop.eq_def] at hdone
        dsimp only at hdone ⊢
        rw [if_neg hfull] at hdone ⊢
        rw [if_neg hfull]
        cases recv with
        | timeout => exact ih hdone
        | failed => rfl
        | data bytes =>
            dsimp only at hdone ⊢
            split_ifs at hdone ⊢ with hempty
            · rfl
            · exact ih hdone

theorem readBody_append {maxLen contentLen : Nat} {recvs : List Recv}
    (hdone : readBody maxLen contentLen recvs ≠ .waiting) (more : List Recv) :
    readBody maxLen contentLen (recvs ++ more) = readBody maxLen contentLen recvs := by
  unfold readBody at hdone ⊢
  split_ifs at hdone ⊢
  · rfl
  · exact readLoop_append hdone more

theorem ended_ofBytes (bytes : Bytes) :
    readLoop bytes.length [] [.data bytes] ≠ .waiting := by
  rw [readLoop_eq _ _ _ (Nat.zero_le _)]
  cases bytes with
  | nil => simp
  | cons b bytes => simp [received]

/-- A body that comes in one piece. -/
def Transfer.ofBytes (bytes : Bytes) : Transfer :=
  ⟨bytes.length, [.data bytes], ended_ofBytes bytes⟩

/-- The announced bytes, where they all came. -/
def whole (t : Transfer) : Option Bytes :=
  if t.contentLen ≤ (received t.recvs).length then some ((received t.recvs).take t.contentLen)
  else none

theorem whole_filter (maxLen : Nat) (t : Transfer) :
    (whole t).filter (fun body => body.length ≤ maxLen) =
      if maxLen < t.contentLen then none else whole t := by
  unfold whole
  by_cases hall : t.contentLen ≤ (received t.recvs).length
  · have hlength : ((received t.recvs).take t.contentLen).length = t.contentLen := by
      rw [List.length_take, Nat.min_eq_left hall]
    rw [if_pos hall, Option.filter_some, hlength]
    by_cases hmax : maxLen < t.contentLen
    · rw [if_pos hmax, if_neg (by simpa using hmax)]
    · rw [if_neg hmax, if_pos (by simpa using hmax)]
  · rw [if_neg hall, ite_self]
    rfl

/-- A loop that takes up to `maxLen` bytes reads the whole body or none of it. -/
theorem readBody_whole (maxLen : Nat) (t : Transfer) :
    (readBody maxLen t.contentLen t.recvs).body? =
      (whole t).filter fun body => body.length ≤ maxLen := by
  rw [whole_filter, readBody_eq]
  unfold whole
  split_ifs
  · rfl
  · rfl
  · rfl
  · rfl

/-- Where all arrives, the buffer is what arrived of it. -/
theorem buffer_of_whole {t : Transfer} (h : t.contentLen ≤ (received t.recvs).length) :
    buffer t = (received t.recvs).take t.contentLen := by
  rw [buffer, Nat.sub_eq_zero_of_le h, List.replicate_zero, List.append_nil]

theorem length_buffer (t : Transfer) : (buffer t).length = t.contentLen := by
  rw [buffer, List.length_append, List.length_take, List.length_replicate]
  omega

/-- The loop of the configuration API and what its handlers are modelled on. -/
theorem readBody_withTransfer (req : HttpRequest) (t : Transfer) :
    RfIrBlaster.readBody (withTransfer req t) = readConfigBody t := by
  rw [readConfigBody, readBody_whole, whole_filter]
  unfold RfIrBlaster.readBody withTransfer whole
  simp only [length_buffer, decide_eq_true_eq]
  by_cases hall : t.contentLen ≤ (received t.recvs).length
  · rw [if_pos hall, if_neg (Nat.not_lt.mpr hall), buffer_of_whole hall]
  · rw [if_neg hall, if_pos (Nat.not_le.mp hall)]

/-- The limits of the three servers. -/
def bodyLimits : List Nat :=
  [authMaxBody, maxBody, Onboarding.maxBodyLen]

/-- Two pieces, a timeout between them, and more than was announced. -/
example : readBody authMaxBody 5 [.data (ascii "csr"), .timeout, .data (ascii "f=1&x")] =
    .read (ascii "csrf=") := by
  decide

end RfIrBlaster.Http
