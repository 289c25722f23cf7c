/-
The OTA password: minted and armed by `setup()` of `main.cpp`, shown by `/api/status` and
regenerated by `web_config_api.cpp`, over restarts, power losses and failing calls.
-/
import RfIrBlaster.AuthStore
import RfIrBlaster.PendingAction

namespace RfIrBlaster.Runtime

/-- A restart: the flash is erased first or keeps its durable writes and `kept` later ones.
`setup()` and `configApiBegin` have handles of their own, which may open or not and read a
stored password or not. -/
structure OtaBoot where
  erased : Bool := false
  kept : Nat := 0
  setupOpened : Bool := true
  setupReads : Bool := true
  rand : FixedBytes 16
  answer : NvsAnswer := {}
  apiOpened : Bool := true
  apiReads : Bool := true

/-- The requests to regenerate, and what else is written to or erased from the namespace. -/
inductive OtaEvent where
  | boot (b : OtaBoot)
  | regenerate (req : HttpRequest) (opened : Bool) (rand : FixedBytes 16) (answer : NvsAnswer)
  | other (key : AuthKey) (value : Option Bytes) (answer : NvsAnswer)

/-- The namespace, the password `enableOTA` got in this boot and `g_otaPassword`. -/
structure OtaDevice where
  flash : FlashLog AuthKey Bytes := {}
  armed : Bytes := []
  shown : Bytes := []

namespace OtaDevice

/-- The password `setup()` reads or mints, and what it leaves on flash.  Whether it could be
stored is not looked at. -/
def otaPw (b : OtaBoot) (otaStore : AuthStore) : Bytes × FlashLog AuthKey Bytes :=
  match if b.setupReads then otaStore.getOtaPassword else none with
  | some pw => (pw, otaStore.flash)
  | none =>
      (makeOtaPassword b.rand, (otaStore.setOtaPassword (makeOtaPassword b.rand) b.answer).2.flash)

/-- `setup()` up to `enableOTA`, and the password `configApiBegin` reads back. -/
def boot (b : OtaBoot) (d : OtaDevice) : OtaDevice :=
  let armed := otaPw b
    { ok := b.setupOpened, flash := if b.erased then {} else d.flash.lose b.kept }
  let auth : AuthStore := { ok := b.apiOpened, flash := armed.2 }
  { flash := armed.2
    armed := cStr armed.1
    shown := if b.apiReads then auth.getOtaPassword.getD [] else [] }

/-- `handleRegenOtaPassword`, up to the restart it asks for. -/
def regenerate (req : HttpRequest) (opened : Bool) (rand : FixedBytes 16) (answer : NvsAnswer)
    (d : OtaDevice) : OtaDevice :=
  if !(req.session && req.csrf) then d
  else
    let pw := makeOtaPassword rand
    let auth : AuthStore := { ok := opened, flash := d.flash }
    let (stored, auth) := auth.setOtaPassword pw answer
    if !stored then { d with flash := auth.flash }
    else { d with flash := auth.flash, shown := pw }

def step (d : OtaDevice) : OtaEvent → OtaDevice
  | .boot b => d.boot b
  | .regenerate req opened rand answer => d.regenerate req opened rand answer
  | .other key value answer =>
      if key = .otaPw then d
      else
        let flash := if answer.set then d.flash.write key value else d.flash
        { d with flash := if answer.commit then flash.commit else flash }

/-- A device that leaves the factory blank. -/
def machine : StateMachine OtaDevice OtaEvent where
  init := {}
  step := step

end OtaDevice

/-- The regenerate request goes through. -/
def OtaEvent.accepted : OtaEvent → Option (FixedBytes 16)
  | .regenerate req opened rand answer =>
      if req.session && req.csrf && opened && answer.set && answer.commit then some rand else none
  | _ => none

/-- Nothing that touches the stored password: the flash is not erased, no boot that opens the
namespace fails to read it, and no request to regenerate gets as far as a write. -/
def OtaEvent.Quiet : OtaEvent → Prop
  | .boot b => b.erased = false ∧ (b.setupOpened = true → b.setupReads = true)
  | .regenerate req opened _ answer => (req.session && req.csrf && opened && answer.set) = false
  | .other _ _ _ => True

def OtaEvent.isBoot : OtaEvent → Bool
  | .boot _ => true
  | _ => false

def OtaEvent.erases : OtaEvent → Bool
  | .boot b => b.erased
  | _ => false

/-- The random bytes an event may draw a password from. -/
def OtaEvent.drawn : OtaEvent → Option (FixedBytes 16)
  | .boot b => some b.rand
  | .regenerate _ _ rand _ => some rand
  | .other _ _ _ => none

theorem mem_kHex (n : Nat) (h : n < 16) : kHex.getD n 0 ∈ kHex := by
  have hlt : n < kHex.length := h
  rw [List.getD_eq_getElem kHex 0 hlt]
  exact List.getElem_mem hlt

/-- A password is 32 hexadecimal digits. -/
theorem makeOtaPassword_text (rand : FixedBytes 16) :
    (makeOtaPassword rand).length = 32 ∧ ∀ c ∈ makeOtaPassword rand, c ∈ kHex := by
  refine ⟨?_, fun c hc => ?_⟩
  · rw [makeOtaPassword, List.length_flatMap]
    simp [rand.property]
  · obtain ⟨b, -, hc⟩ := List.mem_flatMap.mp hc
    have hb := b.toNat_lt
    simp only [List.mem_cons, List.not_mem_nil, or_false] at hc
    rcases hc with rfl | rfl
    · exact mem_kHex _ (by omega)
    · exact mem_kHex _ (by omega)

theorem cStr_makeOtaPassword (rand : FixedBytes 16) :
    cStr (makeOtaPassword rand) = makeOtaPassword rand := by
  apply cStr_eq_self
  intro hzero
  exact absurd ((makeOtaPassword_text rand).2 0 hzero) (by decide)

/-- The password was drawn in the run, and the flash was not erased since. -/
def Drawn (events : List OtaEvent) (pw : Bytes) : Prop :=
  ∃ before e rand after, events = before ++ e :: after ∧ e.drawn = some rand ∧
    pw = makeOtaPassword rand ∧ ∀ e' ∈ after, e'.erases = false

section Drawn

variable {events : List OtaEvent} {pw : Bytes}

theorem Drawn.concat (h : Drawn events pw) {e : OtaEvent} (he : e.erases = false) :
    Drawn (events ++ [e]) pw := by
  obtain ⟨before, e', rand, after, rfl, hdrawn, hpw, hkept⟩ := h
  refine ⟨before, e', rand, after ++ [e], by simp, hdrawn, hpw, ?_⟩
  intro e'' he''
  rcases List.mem_append.mp he'' with hold | hnew
  · exact hkept e'' hold
  · rw [List.mem_singleton.mp hnew]
    exact he

theorem Drawn.last {e : OtaEvent} {rand : FixedBytes 16} (he : e.drawn = some rand) :
    Drawn (events ++ [e]) (makeOtaPassword rand) :=
  ⟨events, e, rand, [], rfl, he, rfl, by simp⟩

theorem Drawn.cStr (h : Drawn events pw) : cStr pw = pw := by
  obtain ⟨before, e, rand, after, -, -, rfl, -⟩ := h
  exact cStr_makeOtaPassword rand

end Drawn

namespace OtaDevice

/-- Every password on flash was drawn. -/
def Sourced (events : List OtaEvent) (flash : FlashLog AuthKey Bytes) : Prop :=
  ∀ pw, (AuthKey.otaPw, some pw) ∈ flash.writes → Drawn events pw

section Sourced

variable {events : List OtaEvent} {d : OtaDevice} {flash : FlashLog AuthKey Bytes}

theorem Sourced.set (h : Sourced events flash) {rand : FixedBytes 16}
    (hdrawn : Drawn events (makeOtaPassword rand)) (opened : Bool) (answer : NvsAnswer) :
    Sourced events
      (({ ok := opened, flash := flash } : AuthStore).setOtaPassword
        (makeOtaPassword rand) answer).2.flash := by
  intro pw hpw
  rcases AuthStore.setStr_writes { ok := opened, flash := flash } .otaPw (makeOtaPassword rand)
    answer with hsame | hmore
  · exact h pw (hsame ▸ hpw)
  · unfold AuthStore.setOtaPassword at hpw
    rw [hmore] at hpw
    rcases List.mem_append.mp hpw with hold | hnew
    · exact h pw hold
    · rw [List.mem_singleton, Prod.mk.injEq, cStr_makeOtaPassword] at hnew
      exact Option.some.inj hnew.2 ▸ hdrawn

theorem getOtaPassword_eq (opened : Bool) (flash : FlashLog AuthKey Bytes) :
    ({ ok := opened, flash := flash } : AuthStore).getOtaPassword =
      if opened then flash.read .otaPw else none :=
  rfl

/-- What is read from flash is armed, or a fresh password that goes there. -/
theorem otaPw_cases (b : OtaBoot) (flash : FlashLog AuthKey Bytes) :
    (∃ pw, b.setupOpened = true ∧ flash.read .otaPw = some pw ∧
      otaPw b { ok := b.setupOpened, flash := flash } = (pw, flash)) ∨
    ((b.setupOpened = true ∧ b.setupReads = true → flash.read .otaPw = none) ∧
      otaPw b { ok := b.setupOpened, flash := flash } =
        (makeOtaPassword b.rand,
          (({ ok := b.setupOpened, flash := flash } : AuthStore).setOtaPassword
            (makeOtaPassword b.rand) b.answer).2.flash)) := by
  unfold otaPw
  rw [getOtaPassword_eq]
  cases b.setupOpened with
  | false => exact Or.inr ⟨by simp, by simp⟩
  | true =>
      cases b.setupReads with
      | false => exact Or.inr ⟨by simp, rfl⟩
      | true =>
          rw [if_pos rfl, if_pos rfl]
          cases hread : flash.read .otaPw with
          | some pw => exact Or.inl ⟨pw, rfl, rfl, rfl⟩
          | none => exact Or.inr ⟨fun _ => rfl, rfl⟩

/-- After an attempt to store a password where there was none, it is there or nothing is. -/
theorem read_setOtaPassword (opened : Bool) {flash : FlashLog AuthKey Bytes}
    (hnone : flash.read .otaPw = none) (rand : FixedBytes 16) (answer : NvsAnswer) :
    (({ ok := opened, flash := flash } : AuthStore).setOtaPassword
        (makeOtaPassword rand) answer).2.flash.read .otaPw ∈
      [none, some (makeOtaPassword rand)] := by
  unfold AuthStore.setOtaPassword AuthStore.setStr
  rw [cStr_makeOtaPassword]
  split_ifs
  · simp [hnone]
  · simp [hnone]
  · simp
  · simp

theorem Sourced.boot (h : Sourced events d.flash) (b : OtaBoot) :
    Sourced (events ++ [OtaEvent.boot b]) (d.boot b).flash ∧
      Drawn (events ++ [OtaEvent.boot b]) (d.boot b).armed ∧
      (b.setupOpened = true ∧ b.setupReads = true →
        (d.boot b).shown = [] ∨ (d.boot b).shown = (d.boot b).armed) := by
  have hminted : Drawn (events ++ [OtaEvent.boot b]) (makeOtaPassword b.rand) := Drawn.last rfl
  have hfound : Sourced (events ++ [OtaEvent.boot b])
      (if b.erased then {} else d.flash.lose b.kept) := by
    cases herased : b.erased with
    | true =>
        intro pw hpw
        cases hpw
    | false => exact fun pw hpw => (h pw (List.mem_of_mem_take hpw)).concat herased
  unfold OtaDevice.boot
  generalize (if b.erased then {} else d.flash.lose b.kept) = flash at hfound ⊢
  rcases otaPw_cases b flash with ⟨pw, -, hread, heq⟩ | ⟨hnone, heq⟩
  · have hdrawn := hfound pw (FlashLog.mem_of_read hread)
    simp only [heq, hdrawn.cStr, getOtaPassword_eq, hread]
    refine ⟨hfound, hdrawn, fun _ => ?_⟩
    cases b.apiReads with
    | false => exact Or.inl rfl
    | true =>
        cases b.apiOpened with
        | true => exact Or.inr rfl
        | false => exact Or.inl rfl
  · simp only [heq, cStr_makeOtaPassword, getOtaPassword_eq]
    refine ⟨hfound.set hminted _ _, hminted, fun hread => ?_⟩
    cases b.apiReads with
    | false => exact Or.inl rfl
    | true =>
        cases b.apiOpened with
        | false => exact Or.inl rfl
        | true =>
            have hmem := read_setOtaPassword b.setupOpened (hnone hread) b.rand b.answer
            rw [List.mem_cons, List.mem_singleton] at hmem
            rcases hmem with hempty | hstored
            · exact Or.inl (by rw [if_pos rfl, if_pos rfl, hempty, Option.getD_none])
            · exact Or.inr (by rw [if_pos rfl, if_pos rfl, hstored, Option.getD_some])

theorem Sourced.concat (h : Sourced events flash) {e : OtaEvent} (he : e.erases = false) :
    Sourced (events ++ [e]) flash :=
  fun pw hpw => (h pw hpw).concat he

theorem Sourced.step (h : Sourced events d.flash) (e : OtaEvent) :
    Sourced (events ++ [e]) (d.step e).flash := by
  cases e with
  | boot b => exact (h.boot b).1
  | regenerate req opened rand answer =>
      have hset : Sourced (events ++ [OtaEvent.regenerate req opened rand answer])
          (({ ok := opened, flash := d.flash } : AuthStore).setOtaPassword
            (makeOtaPassword rand) answer).2.flash :=
        (h.concat rfl).set (Drawn.last rfl) opened answer
      simp only [OtaDevice.step, regenerate]
      split_ifs
      · exact h.concat rfl
      · exact hset
      · exact hset
  | other key value answer =>
      have hkept : Sourced (events ++ [OtaEvent.other key value answer]) d.flash := h.concat rfl
      simp only [OtaDevice.step]
      by_cases hkey : key = .otaPw
      · rw [if_pos hkey]
        exact hkept
      · rw [if_neg hkey]
        have hwritten : Sourced (events ++ [OtaEvent.other key value answer])
            (if answer.set then d.flash.write key value else d.flash) := by
          cases answer.set with
          | false => exact hkept
          | true =>
              intro pw hpw
              rcases List.mem_append.mp hpw with hold | hnew
              · exact hkept pw hold
              · rw [List.mem_singleton, Prod.mk.injEq] at hnew
                exact absurd hnew.1.symm hkey
        cases answer.commit with
        | false => exact hwritten
        | true => exact hwritten

end Sourced

theorem run_sourced (events : List OtaEvent) : Sourced events (machine.run events).flash :=
  machine.run_induction (P := fun events d => Sourced events d.flash)
    (fun _ hpw => (by cases hpw)) (fun _ e h => h.step e) events

/-- Until the next boot the armed password stays, and the shown one is only changed by an
accepted request. -/
theorem step_between {d : OtaDevice} {e : OtaEvent} (he : e.isBoot = false) :
    (d.step e).armed = d.armed ∧
      (d.step e).shown = (e.accepted.map makeOtaPassword).getD d.shown := by
  cases e with
  | boot b => cases he
  | regenerate req opened rand answer =>
      simp only [step, regenerate, OtaEvent.accepted, AuthStore.setOtaPassword, AuthStore.setStr]
      cases req.session <;> cases req.csrf <;> cases opened <;> cases answer.set <;>
        cases answer.commit <;> exact ⟨rfl, rfl⟩
  | other key value answer =>
      simp only [step, OtaEvent.accepted]
      split_ifs <;> exact ⟨rfl, rfl⟩

theorem run_armed (events : List OtaEvent) {post : List OtaEvent}
    (hpost : ∀ e ∈ post, e.isBoot = false) :
    (machine.run (events ++ post)).armed = (machine.run events).armed := by
  refine machine.run_prefix_rel (R := fun a b => b.armed = a.armed) (fun _ => rfl)
    (fun _ _ _ hab hbc => hbc.trans hab) ?_
  intro mid e rest hsplit
  exact (step_between (hpost e (by simp [hsplit]))).1

theorem run_shown (events : List OtaEvent) {post : List OtaEvent}
    (hpost : ∀ e ∈ post, e.isBoot = false ∧ e.accepted = none) :
    (machine.run (events ++ post)).shown = (machine.run events).shown := by
  refine machine.run_prefix_rel (R := fun a b => b.shown = a.shown) (fun _ => rfl)
    (fun _ _ _ hab hbc => hbc.trans hab) ?_
  intro mid e rest hsplit
  obtain ⟨hboot, hnone⟩ := hpost e (by simp [hsplit])
  have hshown := (@step_between (machine.run (events ++ mid)) e hboot).2
  rwa [hnone] at hshown

/-- Whatever restarts, power losses and failing calls came before, a boot arms OTA updates
with 32 hexadecimal digits drawn on this device since its flash was last erased, and keeps
them armed; and where it could open and read the namespace for that, the page shows these or
nothing until a request to regenerate is accepted. -/
theorem armed_password_drawn (events : List OtaEvent) (b : OtaBoot) {post : List OtaEvent}
    (hpost : ∀ e ∈ post, e.isBoot = false) :
    ∃ pw, Drawn (events ++ [OtaEvent.boot b]) pw ∧ pw.length = 32 ∧ (∀ c ∈ pw, c ∈ kHex) ∧
      (machine.run (events ++ [OtaEvent.boot b] ++ post)).armed = pw ∧
      (b.setupOpened = true ∧ b.setupReads = true → (∀ e ∈ post, e.accepted = none) →
        (machine.run (events ++ [OtaEvent.boot b] ++ post)).shown = [] ∨
          (machine.run (events ++ [OtaEvent.boot b] ++ post)).shown = pw) := by
  obtain ⟨-, hdrawn, hshown⟩ := (run_sourced events).boot b
  have harmed := run_armed (events ++ [OtaEvent.boot b]) hpost
  rw [machine.run_concat] at harmed
  refine ⟨((machine.run events).boot b).armed, hdrawn, ?_, ?_, harmed, fun hread hnone => ?_⟩
  · obtain ⟨before, e, rand, after, -, -, heq, -⟩ := hdrawn
    rw [heq]
    exact (makeOtaPassword_text rand).1
  · obtain ⟨before, e, rand, after, -, -, heq, -⟩ := hdrawn
    rw [heq]
    exact (makeOtaPassword_text rand).2
  · have hsame := run_shown (events ++ [OtaEvent.boot b]) fun e he => ⟨hpost e he, hnone e he⟩
    rw [machine.run_concat] at hsame
    rw [hsame]
    exact hshown hread

/-- Sixteen equal bytes, where a device draws random ones. -/
def sixteen (byte : UInt8) : FixedBytes 16 :=
  ⟨List.replicate 16 byte, List.length_replicate⟩

/-- A first boot that cannot store what it has minted. -/
theorem armed_password_drawn_first :
    let d := machine.run (([] : List OtaEvent) ++
      [OtaEvent.boot { rand := sixteen 7, answer := { set := false } }] ++
      [OtaEvent.other .nonce none {}])
    ∃ pw,
      Drawn (([] : List OtaEvent) ++
        [OtaEvent.boot { rand := sixteen 7, answer := { set := false } }]) pw ∧
      pw.length = 32 ∧ (∀ c ∈ pw, c ∈ kHex) ∧ d.armed = pw ∧ (d.shown = [] ∨ d.shown = pw) := by
  have hpost : ∀ e ∈ [OtaEvent.other .nonce none {}], e.isBoot = false := by
    simp [OtaEvent.isBoot]
  have hnone : ∀ e ∈ [OtaEvent.other .nonce none {}], e.accepted = none := by
    simp [OtaEvent.accepted]
  obtain ⟨pw, hdrawn, hlength, hdigits, harmed, hshown⟩ :=
    armed_password_drawn [] { rand := sixteen 7, answer := { set := false } } hpost
  exact ⟨pw, hdrawn, hlength, hdigits, harmed, hshown ⟨rfl, rfl⟩ hnone⟩

section Stored

variable {d : OtaDevice} {pw : Bytes}

/-- A boot arms what is stored, unless the namespace does not open for it. -/
theorem stored_boot (h : d.flash.Settled .otaPw (some pw)) {b : OtaBoot}
    (herased : b.erased = false) (hread : b.setupOpened = true → b.setupReads = true) :
    (d.boot b).flash.Settled .otaPw (some pw) ∧
      (d.boot b).armed = (if b.setupOpened then cStr pw else makeOtaPassword b.rand) ∧
      (d.boot b).shown = if b.apiOpened && b.apiReads then pw else [] := by
  have hlost := h.lose b.kept
  unfold boot
  rw [herased]
  simp only [Bool.false_eq_true, if_false]
  generalize d.flash.lose b.kept = flash at hlost ⊢
  rcases otaPw_cases b flash with ⟨pw', hopened, hfound, heq⟩ | ⟨hnone, heq⟩
  · obtain rfl : pw' = pw := Option.some.inj (hfound.symm.trans hlost.read)
    simp only [heq, getOtaPassword_eq, hfound]
    exact ⟨hlost, by rw [hopened, if_pos rfl], by cases b.apiOpened <;> cases b.apiReads <;> rfl⟩
  · have hclosed : b.setupOpened = false := by
      by_contra hopen
      have hopened := Bool.eq_true_of_not_eq_false hopen
      have hempty := hnone ⟨hopened, hread hopened⟩
      exact absurd (hempty.symm.trans hlost.read) (by simp)
    rw [heq, hclosed]
    have hsame : (({ ok := false, flash := flash } : AuthStore).setOtaPassword
        (makeOtaPassword b.rand) b.answer).2.flash = flash := rfl
    simp only [hsame, getOtaPassword_eq, hlost.read, cStr_makeOtaPassword]
    exact ⟨hlost, by simp, by cases b.apiOpened <;> cases b.apiReads <;> rfl⟩

/-- A stored password stays stored through quiet events. -/
theorem stored_step (h : d.flash.Settled .otaPw (some pw)) {e : OtaEvent} (he : e.Quiet) :
    (d.step e).flash.Settled .otaPw (some pw) := by
  cases e with
  | boot b => exact (stored_boot h he.1 he.2).1
  | regenerate req opened rand answer =>
      have hsame : (d.step (.regenerate req opened rand answer)).flash = d.flash := by
        unfold OtaEvent.Quiet at he
        simp only [step, regenerate, AuthStore.setOtaPassword, AuthStore.setStr]
        cases hsession : req.session <;> cases hcsrf : req.csrf <;> cases hopened : opened <;>
          cases hset : answer.set <;> simp [hsession, hcsrf, hopened, hset] at he ⊢
      rw [hsame]
      exact h
  | other key value answer =>
      simp only [step]
      by_cases hkey : key = .otaPw
      · rw [if_pos hkey]
        exact h
      · rw [if_neg hkey]
        have hwritten : (if answer.set then d.flash.write key value else d.flash).Settled .otaPw
            (some pw) := by
          cases answer.set with
          | false => exact h
          | true => exact h.write_other hkey value
        cases answer.commit with
        | false => exact hwritten
        | true => exact hwritten.commit

/-- An accepted request stores its password. -/
theorem stored_accepted {e : OtaEvent} {rand : FixedBytes 16} (he : e.accepted = some rand) :
    (d.step e).flash.Settled .otaPw (some (makeOtaPassword rand)) := by
  cases e with
  | boot b => cases he
  | other key value answer => cases he
  | regenerate req opened rand' answer =>
      simp only [OtaEvent.accepted] at he
      split_ifs at he with hall
      obtain rfl : rand' = rand := Option.some.inj he
      simp only [Bool.and_eq_true] at hall
      obtain ⟨⟨⟨⟨hsession, hcsrf⟩, hopened⟩, hset⟩, hcommit⟩ := hall
      have hstored : (({ ok := opened, flash := d.flash } : AuthStore).setOtaPassword
          (makeOtaPassword rand') answer).1 = true := by
        simp [AuthStore.setOtaPassword, AuthStore.setStr, hopened, hset, hcommit]
      have hsettled := (AuthStore.setStr_settled hstored).2
      rw [cStr_makeOtaPassword] at hsettled
      simp only [step, regenerate, hsession, hcsrf, hstored]
      exact hsettled

theorem run_stored (events : List OtaEvent) {more : List OtaEvent}
    (h : (machine.run events).flash.Settled .otaPw (some pw))
    (hquiet : ∀ e ∈ more, e.Quiet) :
    (machine.run (events ++ more)).flash.Settled .otaPw (some pw) := by
  refine machine.run_prefix_rel
    (R := fun a b => a.flash.Settled .otaPw (some pw) → b.flash.Settled .otaPw (some pw))
    (fun _ ha => ha) (fun _ _ _ hab hbc ha => hbc (hab ha)) ?_ h
  intro mid e rest hsplit ha
  exact stored_step ha (hquiet e (by simp [hsplit]))

end Stored

theorem Quiet.accepted {e : OtaEvent} (h : e.Quiet) : e.accepted = none := by
  cases e with
  | boot b => rfl
  | regenerate req opened rand answer =>
      unfold OtaEvent.Quiet at h
      rw [OtaEvent.accepted, h]
      rfl
  | other key value answer => rfl

/-- The password of an accepted request to regenerate is shown at once, while the one armed
before stays until the next boot; and it is armed and shown from each later boot on, whatever
that boot keeps of what was not yet committed, unless the namespace does not open there, until
the flash is erased, a boot fails to read it or another request writes a password. -/
theorem regenerated_password_armed (events : List OtaEvent) {e : OtaEvent} {rand : FixedBytes 16}
    (he : e.accepted = some rand) {more : List OtaEvent} (hquiet : ∀ e' ∈ more, e'.Quiet) :
    ((∀ e' ∈ more, e'.isBoot = false) →
      (machine.run (events ++ [e] ++ more)).shown = makeOtaPassword rand ∧
        (machine.run (events ++ [e] ++ more)).armed = (machine.run events).armed) ∧
      ∀ b (after : List OtaEvent), (OtaEvent.boot b).Quiet →
        (∀ e' ∈ after, e'.Quiet ∧ e'.isBoot = false) →
        let d := machine.run (events ++ [e] ++ more ++ [OtaEvent.boot b] ++ after)
        d.armed = (if b.setupOpened then makeOtaPassword rand else makeOtaPassword b.rand) ∧
          d.shown = if b.apiOpened && b.apiReads then makeOtaPassword rand else [] := by
  have hboot : e.isBoot = false := by
    cases e with
    | boot b => cases he
    | regenerate req opened rand' answer => rfl
    | other key value answer => rfl
  obtain ⟨harmed, hshown⟩ := step_between (d := machine.run events) hboot
  rw [he] at hshown
  refine ⟨fun hnone => ⟨?_, ?_⟩, fun b after hquietBoot hafter => ⟨?_, ?_⟩⟩
  · rw [run_shown (events ++ [e]) fun e' he' =>
      ⟨hnone e' he', Quiet.accepted (hquiet e' he')⟩, machine.run_concat]
    exact hshown
  · rw [run_armed (events ++ [e]) hnone, machine.run_concat]
    exact harmed
  all_goals
    have hstored : (machine.run (events ++ [e])).flash.Settled .otaPw
        (some (makeOtaPassword rand)) := by
      rw [machine.run_concat]
      exact stored_accepted he
    obtain ⟨-, hbootArmed, hbootShown⟩ :=
      stored_boot (run_stored (events ++ [e]) hstored hquiet) hquietBoot.1 hquietBoot.2
  · rw [run_armed _ fun e' he' => (hafter e' he').2, machine.run_concat]
    rw [cStr_makeOtaPassword] at hbootArmed
    exact hbootArmed
  · rw [run_shown _ fun e' he' => ⟨(hafter e' he').2, Quiet.accepted (hafter e' he').1⟩,
      machine.run_concat]
    exact hbootShown

/-- The power fails right after the answer, and a later request cannot write its own. -/
theorem regenerated_password_armed_power_loss :
    let d := machine.run (([OtaEvent.boot { rand := sixteen 7 }] : List OtaEvent) ++
      [OtaEvent.regenerate {} true (sixteen 9) {}] ++
      [OtaEvent.regenerate {} true (sixteen 5) { set := false }] ++
      [OtaEvent.boot { rand := sixteen 8 }] ++ [])
    d.armed = makeOtaPassword (sixteen 9) ∧ d.shown = makeOtaPassword (sixteen 9) := by
  have he : (OtaEvent.regenerate {} true (sixteen 9) {}).accepted = some (sixteen 9) := rfl
  have hquiet : ∀ e ∈ [OtaEvent.regenerate {} true (sixteen 5) { set := false }], e.Quiet := by
    intro e he
    rw [List.mem_singleton.mp he]
    rfl
  exact (regenerated_password_armed [OtaEvent.boot { rand := sixteen 7 }] he hquiet).2
    { rand := sixteen 8 } [] ⟨rfl, fun _ => rfl⟩ (by simp)

end OtaDevice

end RfIrBlaster.Runtime
