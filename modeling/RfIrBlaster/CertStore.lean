/-
The certificate of the HTTPS server (`cert_store.cpp`), found on flash or generated and
stored there, over whole histories of restarts, power losses and failing writes.
-/
import RfIrBlaster.ConfigJson
import RfIrBlaster.FlashLog
import RfIrBlaster.StateMachine

namespace RfIrBlaster.Web

/-- The keys of the namespace `rfircert`. -/
inductive CertKey where
  | cert
  | key
deriving DecidableEq, Repr

/-- What mbedTLS generates: a self-signed certificate and its private key, as the C strings
that hold the PEM texts. -/
structure KeyPair where
  certPem : Bytes
  keyPem : Bytes
  cert_text : certPem ≠ [] ∧ 0 ∉ certPem
  key_text : keyPem ≠ [] ∧ 0 ∉ keyPem

structure CertMaterial where
  certPem : Bytes := []
  keyPem : Bytes := []
  ok : Bool := false
deriving DecidableEq, Repr

def KeyPair.material (pair : KeyPair) : CertMaterial :=
  { certPem := pair.certPem, keyPem := pair.keyPem, ok := true }

/-- A restart: the flash is erased first or keeps its durable writes and `kept` later ones;
`https` when the listeners are started with it on, and whether each call then goes through:
`readCert` and `readKey` stand for both calls of `nvs_get_str`. -/
structure CertBoot where
  erased : Bool := false
  kept : Nat := 0
  https : Bool := true
  opened : Bool := true
  readCert : Bool := true
  readKey : Bool := true
  generated : Option KeyPair := none
  setCert : Bool := true
  setKey : Bool := true
  commit : Bool := true

/-- The length `nvs_get_str` reports counts the NUL. -/
def nvsReadStr (ok : Bool) (flash : FlashLog CertKey Bytes) (k : CertKey) : Option Bytes :=
  if !ok then none else (flash.read k).filter fun text => 1 < text.length + 1

/-- The key is only written after the certificate, and both only committed together. -/
def persist (b : CertBoot) (pair : KeyPair) (flash : FlashLog CertKey Bytes) :
    FlashLog CertKey Bytes :=
  if !b.setCert then flash
  else
    let withCert := flash.write .cert (some (cStr pair.certPem))
    if !b.setKey then withCert
    else
      let withKey := withCert.write .key (some (cStr pair.keyPem))
      if b.commit then withKey.commit else withKey

def loadOrCreateCert (b : CertBoot) (flash : FlashLog CertKey Bytes) :
    CertMaterial × FlashLog CertKey Bytes :=
  if !b.opened then ({}, flash)
  else
    match nvsReadStr b.readCert flash .cert, nvsReadStr b.readKey flash .key with
    | some certPem, some keyPem => ({ certPem := certPem, keyPem := keyPem, ok := true }, flash)
    | certPem, _ =>
        match b.generated with
        | none => ({ certPem := certPem.getD [] }, flash)
        | some pair => (pair.material, persist b pair flash)

/-- The flash and what this boot has handed to the HTTPS server, `none` when it is not started. -/
structure CertState where
  flash : FlashLog CertKey Bytes := {}
  server : Option CertMaterial := none

/-- What a restart finds on flash. -/
def CertState.found (s : CertState) (b : CertBoot) : FlashLog CertKey Bytes :=
  if b.erased then {} else s.flash.lose b.kept

/-- The HTTPS part of `startListeners`: without a certificate it gives up. -/
def CertState.boot (s : CertState) (b : CertBoot) : CertState :=
  if !b.https then { flash := s.found b }
  else
    let loaded := loadOrCreateCert b (s.found b)
    { flash := loaded.2, server := if loaded.1.ok then some loaded.1 else none }

/-- A device that leaves the factory blank. -/
def certMachine : StateMachine CertState CertBoot where
  init := {}
  step := CertState.boot

/-- The pair was generated in a boot of the run since which the flash was not erased. -/
def Made (boots : List CertBoot) (pair : KeyPair) : Prop :=
  ∃ before b after, boots = before ++ b :: after ∧ b.generated = some pair ∧
    ∀ b' ∈ after, b'.erased = false

/-- Every write of the boot goes through. -/
def CertBoot.Persists (b : CertBoot) : Prop :=
  b.setCert = true ∧ b.setKey = true ∧ b.commit = true

/-- The boot cannot read the pair that is stored, makes another one and writes the certificate
of it, without its key and the commit going through as well. -/
structure CertBoot.Mixes (b : CertBoot) (flash : FlashLog CertKey Bytes) : Prop where
  starts : b.https = true ∧ b.opened = true
  stored : flash.read .key ≠ none
  unread : (b.readCert && b.readKey) = false
  generated : b.generated ≠ none
  written : b.setCert = true
  torn : ¬(b.setKey = true ∧ b.commit = true)

/-- Nothing under the key, or it ends with a pair that belongs together; a power loss cannot
cut that pair in two and leave an older key behind. -/
def Paired (boots : List CertBoot) (flash : FlashLog CertKey Bytes) : Prop :=
  (∀ w ∈ flash.writes, w.1 ≠ .key) ∨
    ∃ front pair, flash.writes =
        front ++ [(.cert, some pair.certPem)] ++ [(.key, some pair.keyPem)] ∧
      ((∀ w ∈ front, w.1 ≠ .key) ∨ flash.writes.length ≤ flash.committed) ∧ Made boots pair

/-- Both keys hold the material, whatever a power loss keeps. -/
def Stored (flash : FlashLog CertKey Bytes) (m : CertMaterial) : Prop :=
  m.ok = true ∧ m.certPem ≠ [] ∧ m.keyPem ≠ [] ∧
    flash.Settled .cert (some m.certPem) ∧ flash.Settled .key (some m.keyPem)

section Load

variable {boots : List CertBoot} {b : CertBoot} {flash : FlashLog CertKey Bytes}

theorem Made.concat {pair : KeyPair} (h : Made boots pair) (hb : b.erased = false) :
    Made (boots ++ [b]) pair := by
  obtain ⟨before, b', after, rfl, hgenerated, hkept⟩ := h
  refine ⟨before, b', after ++ [b], by simp, hgenerated, ?_⟩
  intro b'' hb''
  rcases List.mem_append.mp hb'' with hold | hnew
  · exact hkept b'' hold
  · rw [List.mem_singleton.mp hnew]
    exact hb

theorem Made.of_last {pair : KeyPair} (h : b.generated = some pair) :
    Made (boots ++ [b]) pair :=
  ⟨boots, b, [], rfl, h, by simp⟩

/-- A power loss takes the key away before the certificate. -/
theorem Paired.lose (h : Paired boots flash) (kept : Nat) : Paired boots (flash.lose kept) := by
  have hcertless : ∀ writes : List (CertKey × Option Bytes), (∀ w ∈ writes, w.1 ≠ .key) →
      ∀ n, ∀ w ∈ writes.take n, w.1 ≠ .key :=
    fun writes hfree n w hw => hfree w (List.mem_of_mem_take hw)
  rcases h with hfree | ⟨front, pair, hwrites, hcut, hmade⟩
  · exact Or.inl (hcertless flash.writes hfree _)
  · by_cases hwhole : flash.writes.length ≤ flash.committed + kept
    · refine Or.inr ⟨front, pair, ?_, Or.inr le_rfl, hmade⟩
      rw [← hwrites]
      exact List.take_of_length_le hwhole
    · left
      have hfree : ∀ w ∈ front, w.1 ≠ .key := by
        rcases hcut with hfree | hcommitted
        · exact hfree
        · omega
      have hcertFree : ∀ w ∈ front ++ [(CertKey.cert, some pair.certPem)], w.1 ≠ .key := by
        intro w hw
        rcases List.mem_append.mp hw with hfront | hcert
        · exact hfree w hfront
        · rw [List.mem_singleton.mp hcert]
          simp
      have hshort : flash.committed + kept ≤
          (front ++ [(CertKey.cert, some pair.certPem)]).length := by
        rw [hwrites, List.length_append, List.length_singleton] at hwhole
        omega
      change ∀ w ∈ flash.writes.take _, w.1 ≠ .key
      rw [hwrites, List.take_append_of_le_length hshort]
      exact hcertless _ hcertFree _

theorem nvsReadStr_some {k : CertKey} {text : Bytes} (h : flash.read k = some text)
    (hne : text ≠ []) : nvsReadStr true flash k = some text := by
  rw [nvsReadStr, if_neg (by decide), h, Option.filter_some, if_pos]
  have hpos : 0 < text.length := List.length_pos_of_ne_nil hne
  exact decide_eq_true (by omega)

/-- A stored pair that can be read is found, and nothing is written. -/
theorem loadOrCreateCert_found {m : CertMaterial} (h : Stored flash m) (hopened : b.opened = true)
    (hread : b.readCert = true ∧ b.readKey = true) : loadOrCreateCert b flash = (m, flash) := by
  obtain ⟨hok, hcert, hkey, hcertSettled, hkeySettled⟩ := h
  unfold loadOrCreateCert
  rw [hopened, hread.1, hread.2, nvsReadStr_some hcertSettled.read hcert,
    nvsReadStr_some hkeySettled.read hkey]
  obtain ⟨certPem, keyPem, ok⟩ := m
  cases hok
  rfl

theorem cStr_certPem (pair : KeyPair) : cStr pair.certPem = pair.certPem :=
  cStr_eq_self pair.cert_text.2

theorem cStr_keyPem (pair : KeyPair) : cStr pair.keyPem = pair.keyPem :=
  cStr_eq_self pair.key_text.2

/-- What is left behind when a fresh pair goes to flash where no key was. -/
theorem Paired.persist_first (hfree : ∀ w ∈ flash.writes, w.1 ≠ .key) {pair : KeyPair}
    (hmade : Made boots pair) (b : CertBoot) : Paired boots (persist b pair flash) := by
  have hcert : ∀ w ∈ (flash.write .cert (some (cStr pair.certPem))).writes, w.1 ≠ .key := by
    intro w hw
    rcases List.mem_append.mp hw with hold | hnew
    · exact hfree w hold
    · rw [List.mem_singleton.mp hnew]
      simp
  have hboth : ((flash.write .cert (some (cStr pair.certPem))).write .key
      (some (cStr pair.keyPem))).writes =
      flash.writes ++ [(.cert, some pair.certPem)] ++ [(.key, some pair.keyPem)] := by
    rw [cStr_certPem, cStr_keyPem]
    rfl
  unfold persist
  split_ifs
  · exact Or.inl hfree
  · exact Or.inl hcert
  · exact Or.inr ⟨flash.writes, pair, hboth, Or.inl hfree, hmade⟩
  · exact Or.inr ⟨flash.writes, pair, hboth, Or.inl hfree, hmade⟩

/-- With every write through, the pair is durable. -/
theorem persist_writes (hpersists : b.Persists) (pair : KeyPair) :
    persist b pair flash =
      ((flash.write .cert (some pair.certPem)).write .key (some pair.keyPem)).commit := by
  obtain ⟨hcert, hkey, hcommit⟩ := hpersists
  unfold persist
  rw [cStr_certPem, cStr_keyPem]
  simp [hcert, hkey, hcommit]

theorem persist_stored (hpersists : b.Persists) (pair : KeyPair) :
    Stored (persist b pair flash) pair.material := by
  rw [persist_writes hpersists]
  have hsettled := FlashLog.settled_commit
    ((flash.write .cert (some pair.certPem)).write .key (some pair.keyPem))
  refine ⟨rfl, pair.cert_text.1, pair.key_text.1, ?_, ?_⟩
  · have h := hsettled .cert
    rwa [FlashLog.read_write_other (by simp), FlashLog.read_write_self] at h
  · have h := hsettled .key
    rwa [FlashLog.read_write_self] at h

/-- What a boot leaves behind that stores another pair, where it does not mix the two. -/
theorem Paired.persist (h : Paired boots flash) {pair : KeyPair} (hmade : Made boots pair)
    (hwhole : flash.read .key ≠ none → b.setCert = true → b.setKey = true ∧ b.commit = true) :
    Paired boots (persist b pair flash) := by
  rcases h with hfree | ⟨front, old, hwrites, hcut, hold⟩
  · exact Paired.persist_first hfree hmade b
  · have hkey : flash.read .key ≠ none := by
      rw [FlashLog.read, hwrites, FlashLog.lastOf_concat, if_pos rfl]
      simp
    cases hcert : b.setCert with
    | false =>
        have hsame : Web.persist b pair flash = flash := by simp [Web.persist, hcert]
        rw [hsame]
        exact Or.inr ⟨front, old, hwrites, hcut, hold⟩
    | true =>
        rw [persist_writes ⟨hcert, hwhole hkey hcert⟩]
        exact Or.inr ⟨flash.writes, pair, rfl, Or.inr le_rfl, hmade⟩

/-- Where one of the two is not read, a new pair is generated. -/
theorem loadOrCreateCert_fresh (hopened : b.opened = true)
    (hnone : nvsReadStr b.readCert flash .cert = none ∨ nvsReadStr b.readKey flash .key = none)
    {pair : KeyPair} (hgenerated : b.generated = some pair) :
    loadOrCreateCert b flash = (pair.material, Web.persist b pair flash) := by
  rcases hnone with hnone | hnone <;> simp [loadOrCreateCert, hopened, hnone, hgenerated]

theorem loadOrCreateCert_none
    (hnone : nvsReadStr b.readCert flash .cert = none ∨ nvsReadStr b.readKey flash .key = none)
    (hgenerated : b.generated = none) :
    (loadOrCreateCert b flash).1.ok = false ∧ (loadOrCreateCert b flash).2 = flash := by
  cases hopened : b.opened with
  | false => simp [loadOrCreateCert, hopened]
  | true =>
      rcases hnone with hnone | hnone <;> simp [loadOrCreateCert, hopened, hnone, hgenerated]

theorem nvsReadStr_unread (hunread : (b.readCert && b.readKey) = false) :
    nvsReadStr b.readCert flash .cert = none ∨ nvsReadStr b.readKey flash .key = none := by
  rcases Bool.and_eq_false_iff.mp hunread with hread | hread
  · exact Or.inl (by simp [nvsReadStr, hread])
  · exact Or.inr (by simp [nvsReadStr, hread])

/-- What a boot can get: the pair on flash, which stays as it is, or a new one, where none is
stored or a read fails, or none. -/
theorem loadOrCreateCert_cases (h : Paired boots flash) :
    (loadOrCreateCert b flash).1.ok = false ∧ (loadOrCreateCert b flash).2 = flash ∨
      (∃ pair, Made boots pair ∧ loadOrCreateCert b flash = (pair.material, flash) ∧
        flash.read .cert = some pair.certPem ∧ flash.read .key = some pair.keyPem) ∨
      ∃ pair, b.opened = true ∧
        (flash.read .key ≠ none → (b.readCert && b.readKey) = false) ∧
        b.generated = some pair ∧
        loadOrCreateCert b flash = (pair.material, persist b pair flash) := by
  cases hopened : b.opened with
  | false => exact Or.inl (by simp [loadOrCreateCert, hopened])
  | true =>
      rcases h with hfree | ⟨front, pair, hwrites, -, hmade⟩
      · have hnokey : flash.read .key = none := by
          cases hread : flash.read .key with
          | none => rfl
          | some text => exact absurd rfl (hfree _ (FlashLog.mem_of_read hread))
        have hnone : nvsReadStr b.readKey flash .key = none := by
          rw [nvsReadStr, hnokey, Option.filter_none, ite_self]
        cases hgenerated : b.generated with
        | none => exact Or.inl (loadOrCreateCert_none (Or.inr hnone) hgenerated)
        | some pair =>
            exact Or.inr (Or.inr ⟨pair, rfl, fun hkey => absurd hnokey hkey, rfl,
              loadOrCreateCert_fresh hopened (Or.inr hnone) hgenerated⟩)
      · have hcert : flash.read .cert = some pair.certPem := by
          rw [FlashLog.read, hwrites, FlashLog.lastOf_concat, if_neg (by simp),
            FlashLog.lastOf_concat, if_pos rfl]
        have hkey : flash.read .key = some pair.keyPem := by
          rw [FlashLog.read, hwrites, FlashLog.lastOf_concat, if_pos rfl]
        cases hreads : b.readCert && b.readKey with
        | true =>
            obtain ⟨hreadCert, hreadKey⟩ := Bool.and_eq_true_iff.mp hreads
            refine Or.inr (Or.inl ⟨pair, hmade, ?_, hcert, hkey⟩)
            simp [loadOrCreateCert, hopened, hreadCert, hreadKey,
              nvsReadStr_some hcert pair.cert_text.1, nvsReadStr_some hkey pair.key_text.1,
              KeyPair.material]
        | false =>
            have hnone := @nvsReadStr_unread b flash hreads
            cases hgenerated : b.generated with
            | none => exact Or.inl (loadOrCreateCert_none hnone hgenerated)
            | some new =>
                exact Or.inr (Or.inr ⟨new, rfl, fun _ => rfl, rfl,
                  loadOrCreateCert_fresh hopened hnone hgenerated⟩)

end Load

section Run

variable {boots : List CertBoot}

theorem found_paired {s : CertState} (h : Paired boots s.flash) (b : CertBoot) :
    Paired (boots ++ [b]) (s.found b) := by
  unfold CertState.found
  cases herased : b.erased with
  | true => exact Or.inl (by simp)
  | false =>
      rcases h.lose b.kept with hfree | ⟨front, pair, hwrites, hcut, hmade⟩
      · exact Or.inl hfree
      · exact Or.inr ⟨front, pair, hwrites, hcut, hmade.concat herased⟩

/-- After a restart all that is left is durable. -/
theorem found_settled (s : CertState) (b : CertBoot) (k : CertKey) :
    (s.found b).Settled k ((s.found b).read k) := by
  unfold CertState.found
  cases b.erased with
  | true => exact FlashLog.settled_empty k
  | false => exact s.flash.settled_lose b.kept k

theorem found_committed (s : CertState) (b : CertBoot) :
    (s.found b).committed = (s.found b).writes.length := by
  unfold CertState.found
  cases b.erased <;> rfl

/-- What the server is started with is a pair of the run; what is on flash stays paired where
the boot does not mix two pairs. -/
theorem boot_paired {s : CertState} (h : Paired boots s.flash) (b : CertBoot) :
    (¬b.Mixes (s.found b) → Paired (boots ++ [b]) (s.boot b).flash) ∧
      ∀ m, (s.boot b).server = some m → ∃ pair, Made (boots ++ [b]) pair ∧ m = pair.material := by
  have hfound := found_paired h b
  unfold CertState.boot
  cases hhttps : b.https with
  | false => exact ⟨fun _ => hfound, by simp⟩
  | true =>
      simp only [Bool.not_true, Bool.false_eq_true, if_false]
      rcases loadOrCreateCert_cases (b := b) hfound with
        ⟨hno, hsame⟩ | ⟨pair, hmade, heq, -, -⟩ | ⟨pair, hopened, hunread, hgenerated, heq⟩
      · rw [hno, hsame]
        exact ⟨fun _ => hfound, by simp⟩
      · rw [heq]
        refine ⟨fun _ => hfound, fun m hm => ⟨pair, hmade, ?_⟩⟩
        exact (Option.some.inj hm).symm
      · rw [heq]
        have hmade := @Made.of_last boots b pair hgenerated
        refine ⟨fun hwhole => hfound.persist hmade fun hkey hcert => ?_, fun m hm => ?_⟩
        · by_contra htorn
          exact hwhole ⟨⟨hhttps, hopened⟩, hkey, hunread hkey, by simp [hgenerated], hcert, htorn⟩
        · exact ⟨pair, hmade, (Option.some.inj hm).symm⟩

/-- No boot mixes a pair of its own with the one that is stored. -/
def Unmixed (boots : List CertBoot) : Prop :=
  certMachine.Guarded (fun s b => ¬b.Mixes (s.found b)) boots

theorem run_paired (hboots : Unmixed boots) : Paired boots (certMachine.run boots).flash :=
  certMachine.guarded_run_induction (P := fun boots s => Paired boots s.flash)
    (Or.inl (by simp [certMachine])) (fun _ b hwhole h => (boot_paired h b).1 hwhole) boots hboots

/-- What a boot with every write through has served is stored. -/
theorem boot_stored {s : CertState} (h : Paired boots s.flash) {b : CertBoot}
    (hpersists : b.Persists) {m : CertMaterial} (hserved : (s.boot b).server = some m) :
    Stored (s.boot b).flash m := by
  have hdurable := found_settled s b
  rw [CertState.boot] at hserved ⊢
  cases hhttps : b.https with
  | false => simp [hhttps] at hserved
  | true =>
      simp only [hhttps, Bool.not_true, Bool.false_eq_true, if_false] at hserved ⊢
      rcases loadOrCreateCert_cases (b := b) (found_paired h b) with
        ⟨hno, -⟩ | ⟨pair, -, heq, hcert, hkey⟩ | ⟨pair, -, -, -, heq⟩
      · simp [hno] at hserved
      · rw [heq] at hserved ⊢
        rw [← Option.some.inj hserved]
        exact ⟨rfl, pair.cert_text.1, pair.key_text.1, hcert ▸ hdurable .cert,
          hkey ▸ hdurable .key⟩
      · rw [heq] at hserved ⊢
        rw [← Option.some.inj hserved]
        exact persist_stored hpersists pair

/-- Nothing keeps the boot from reading what is stored. -/
structure CertBoot.Reads (b : CertBoot) : Prop where
  kept : b.erased = false
  reads : b.readCert = true ∧ b.readKey = true

/-- A later boot finds what is stored, unless the flash does not open or HTTPS is off. -/
theorem Stored.boot {s : CertState} {m : CertMaterial} (h : Stored s.flash m) {b : CertBoot}
    (hb : b.Reads) :
    Stored (s.boot b).flash m ∧
      (s.boot b).server = if b.https && b.opened then some m else none := by
  have hkept : Stored (s.found b) m := by
    obtain ⟨hok, hcert, hkey, hcertSettled, hkeySettled⟩ := h
    unfold CertState.found
    rw [hb.kept]
    exact ⟨hok, hcert, hkey, hcertSettled.lose _, hkeySettled.lose _⟩
  unfold CertState.boot
  cases b.https with
  | false => exact ⟨hkept, rfl⟩
  | true =>
      cases hopened : b.opened with
      | false =>
          have heq : loadOrCreateCert b (s.found b) = ({}, s.found b) := by
            simp [loadOrCreateCert, hopened]
          simp only [Bool.not_true, Bool.false_eq_true, if_false, heq]
          exact ⟨hkept, rfl⟩
      | true =>
          simp only [Bool.not_true, Bool.false_eq_true, if_false,
            loadOrCreateCert_found hkept hopened hb.reads]
          exact ⟨hkept, by simp [hkept.1]⟩

/-- Over any history of restarts, power losses, erased flash and failing calls in which no
boot mixes its pair with a stored one that it could not read, the HTTPS server comes up only
with a certificate and the key that was generated with it, since the flash was last erased;
and a pair it came up with in a boot whose writes all went through is the one of every later
boot, until the flash is erased or a read fails. -/
theorem certificate_kept (boots : List CertBoot) (b : CertBoot) {m : CertMaterial}
    (hboots : Unmixed boots) (hserved : (certMachine.run (boots ++ [b])).server = some m) :
    (∃ pair, Made (boots ++ [b]) pair ∧ m = pair.material) ∧
      (b.Persists → ∀ (more : List CertBoot) last, (∀ b' ∈ more ++ [last], b'.Reads) →
        (certMachine.run (boots ++ [b] ++ more ++ [last])).server =
          if last.https && last.opened then some m else none) := by
  have hpaired := run_paired hboots
  rw [certMachine.run_concat] at hserved
  refine ⟨(boot_paired hpaired b).2 m hserved, fun hpersists more last hreads => ?_⟩
  have hfirst : Stored (certMachine.run (boots ++ [b])).flash m := by
    rw [certMachine.run_concat]
    exact boot_stored hpaired hpersists hserved
  have hstored : Stored (certMachine.run (boots ++ [b] ++ more)).flash m := by
    refine certMachine.run_prefix_rel (R := fun s s' => Stored s.flash m → Stored s'.flash m)
      (fun _ h => h) (fun _ _ _ hab hbc h => hbc (hab h)) ?_ hfirst
    intro mid b' rest hmore h
    exact (h.boot (hreads b' (by simp [hmore]))).1
  rw [certMachine.run_concat]
  exact (hstored.boot (hreads last (by simp))).2

/-- What a power loss leaves of a write of the pair that stopped after the certificate. -/
theorem persist_torn {flash : FlashLog CertKey Bytes} (hdurable : flash.committed =
    flash.writes.length) {b : CertBoot} (hcert : b.setCert = true)
    (htorn : ¬(b.setKey = true ∧ b.commit = true)) (pair : KeyPair) :
    ((persist b pair flash).lose 1).writes = flash.writes ++ [(.cert, some pair.certPem)] := by
  have hlong : flash.writes.length + 1 =
      (flash.writes ++ [((.cert : CertKey), some pair.certPem)]).length := by
    rw [List.length_append, List.length_singleton]
  unfold persist FlashLog.lose
  rw [cStr_certPem]
  cases hkey : b.setKey with
  | false =>
      simp only [hcert, Bool.not_true, Bool.not_false, Bool.false_eq_true, if_false, if_true,
        FlashLog.write]
      rw [hdurable, hlong, List.take_length]
  | true =>
      have hcommit : b.commit = false := by
        cases hcommit : b.commit with
        | false => rfl
        | true => exact absurd ⟨hkey, hcommit⟩ htorn
      simp only [hcert, hcommit, Bool.not_true, Bool.false_eq_true, if_false, FlashLog.write]
      rw [hdurable, hlong, List.take_left]

/-- A boot whose calls go through serves what the flash reads. -/
theorem boot_reads {s : CertState} {kept : Nat} {certPem keyPem : Bytes}
    (hcert : (s.flash.lose kept).read .cert = some certPem) (hcertPem : certPem ≠ [])
    (hkey : (s.flash.lose kept).read .key = some keyPem) (hkeyPem : keyPem ≠ []) :
    (s.boot { kept := kept }).server =
      some { certPem := certPem, keyPem := keyPem, ok := true } := by
  simp [CertState.boot, CertState.found, loadOrCreateCert, nvsReadStr_some hcert hcertPem,
    nvsReadStr_some hkey hkeyPem]

/-- A boot that does mix leaves a certificate behind that the next one can serve with the key
of another. -/
theorem certificate_mixed {b : CertBoot} (hboots : Unmixed boots)
    (hmixes : b.Mixes ((certMachine.run boots).found b)) :
    ∃ old new, Made (boots ++ [b]) old ∧ b.generated = some new ∧
      (certMachine.run (boots ++ [b] ++ [{ kept := 1 }])).server =
        some { certPem := new.certPem, keyPem := old.keyPem, ok := true } := by
  have hfound := found_paired (run_paired hboots) b
  obtain ⟨new, hgenerated⟩ := Option.ne_none_iff_exists'.mp hmixes.generated
  rcases hfound with hfree | ⟨front, old, hwrites, hcut, hmade⟩
  · obtain ⟨text, hread⟩ := Option.ne_none_iff_exists'.mp hmixes.stored
    exact absurd rfl (hfree _ (FlashLog.mem_of_read hread))
  · refine ⟨old, new, hmade, hgenerated, ?_⟩
    have hboot : ((certMachine.run boots).boot b).flash =
        persist b new ((certMachine.run boots).found b) := by
      rw [CertState.boot, hmixes.starts.1, loadOrCreateCert_fresh hmixes.starts.2
        (nvsReadStr_unread hmixes.unread) hgenerated]
      rfl
    have hleft := persist_torn (found_committed (certMachine.run boots) b) hmixes.written
      hmixes.torn new
    rw [← hboot] at hleft
    have hcert : (((certMachine.run boots).boot b).flash.lose 1).read .cert =
        some new.certPem := by
      rw [FlashLog.read, hleft, FlashLog.lastOf_concat, if_pos rfl]
    have hkey : (((certMachine.run boots).boot b).flash.lose 1).read .key = some old.keyPem := by
      rw [FlashLog.read, hleft, FlashLog.lastOf_concat, if_neg (by simp), hwrites,
        FlashLog.lastOf_concat, if_pos rfl]
    rw [certMachine.run_concat, certMachine.run_concat]
    exact boot_reads hcert new.cert_text.1 hkey old.key_text.1

theorem shortCert (second : Bool) :
    [(99 : UInt8), if second then 50 else 49] ≠ [] ∧
      0 ∉ [(99 : UInt8), if second then 50 else 49] := by
  cases second <;> decide

theorem shortKey (second : Bool) :
    [(107 : UInt8), if second then 50 else 49] ≠ [] ∧
      0 ∉ [(107 : UInt8), if second then 50 else 49] := by
  cases second <;> decide

/-- Two pairs, as short as can be. -/
def shortPair (second : Bool) : KeyPair where
  certPem := [99, if second then 50 else 49]
  keyPem := [107, if second then 50 else 49]
  cert_text := shortCert second
  key_text := shortKey second

/-- The first boot cannot write its key, and the second not read its pair and replaces it; the
power fails after that. -/
theorem certificate_kept_second :
    (certMachine.run ([{ generated := some (shortPair false), setKey := false },
        { generated := some (shortPair false), kept := 1 }] ++
      [{ generated := some (shortPair true), readCert := false }] ++ [] ++
      [{ generated := some (shortPair false) }])).server = some (shortPair true).material := by
  have hserved : (certMachine.run ([{ generated := some (shortPair false), setKey := false },
        { generated := some (shortPair false), kept := 1 }] ++
      [{ generated := some (shortPair true), readCert := false }])).server =
        some (shortPair true).material := by
    decide
  have hunmixed : Unmixed [{ generated := some (shortPair false), setKey := false },
      { generated := some (shortPair false), kept := 1 }] := by
    have hnil := StateMachine.Guarded.nil certMachine fun s b => ¬b.Mixes (s.found b)
    have hfirst : Unmixed [{ generated := some (shortPair false), setKey := false }] :=
      hnil.concat fun hmixes => hmixes.stored rfl
    exact hfirst.concat fun hmixes => hmixes.torn ⟨rfl, rfl⟩
  have hreads : ∀ b' ∈ [] ++ [({ generated := some (shortPair false) } : CertBoot)], b'.Reads := by
    intro b' hb'
    rw [List.mem_singleton.mp hb']
    exact ⟨rfl, rfl, rfl⟩
  exact (certificate_kept _ _ hunmixed hserved).2 ⟨rfl, rfl, rfl⟩ [] _ hreads

end Run

end RfIrBlaster.Web
