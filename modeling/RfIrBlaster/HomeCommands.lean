/-
Home and the page over whole runs of the bridge: what the accessories send is what the page
offers to learn for their devices, and which of the learned commands Home can reach.
-/
import RfIrBlaster.HomeControl
import RfIrBlaster.SendTimeline

namespace RfIrBlaster.Home

open Browser (commandsForService powerCommands)
open KeyedList
open Repeat
open Transmit (Transmitter)

/-- The page offers the command for the service; the command of the empty name it does not
offer, but the unnamed keys of a Television press it. -/
def Offered (service name : Bytes) : Prop :=
  name ∈ commandsForService service ∨ service = ascii "Television" ∧ name = []

/-- For an unknown service the page offers nothing. -/
theorem known_of_offered {service name : Bytes} (h : Offered service name) :
    serviceTypeFromString service ≠ .unknown := by
  intro hunknown
  have hnone : commandsForService service = [] ∧ service ≠ ascii "Television" := by
    unfold serviceTypeFromString at hunknown
    split_ifs at hunknown with h1 h2 h3 h4 h5 h6
    unfold commandsForService
    simp [*]
  rcases h with hmem | ⟨htv, -⟩
  · rw [hnone.1] at hmem
    cases hmem
  · exact hnone.2 htv

/-- The Television has the parts its commands need. -/
def Wired (acc : Accessory) (name : Bytes) : Prop :=
  (name ∈ [] :: keyNames → acc.remoteKey = true) ∧ (name ∈ volumeNames → acc.speaker = true)

/-- The services with one list of commands. -/
theorem commandsOf_plain (cfg : Config) {dev : VirtualDevice} {service : String} {t : ServiceType}
    (hservice : dev.service = ascii service) (ht : serviceTypeFromString (ascii service) = t)
    (htv : t ≠ .television) (hknown : t ≠ .unknown) :
    commandsOf (constructAccessory cfg (plannedAccessory dev)) =
      commandsOf { aid := 0, service := some t } := by
  rw [← hservice] at ht
  unfold constructAccessory plannedAccessory
  cases t with
  | television => exact absurd rfl htv
  | unknown => exact absurd rfl hknown
  | _ =>
      dsimp only
      rw [ht]
      rfl

/-- The commands of the accessory of a device, beside the page's list: the same, but for a
Television, whose keys and volume need their parts. -/
theorem commandsOf_planned (cfg : Config) {dev : VirtualDevice}
    (hknown : serviceTypeFromString dev.service ≠ .unknown) :
    (commandsOf (constructAccessory cfg (plannedAccessory dev)) = commandsForService dev.service ∧
      dev.service ≠ ascii "Television" ∧
      ∀ n ∈ commandsForService dev.service, n ∉ [] :: keyNames ∧ n ∉ volumeNames) ∨
    (commandsOf (constructAccessory cfg (plannedAccessory dev)) = powerCommands ++
        (if (constructAccessory cfg (plannedAccessory dev)).remoteKey then [] :: keyNames
          else []) ++
          (if (constructAccessory cfg (plannedAccessory dev)).speaker then volumeNames else []) ∧
      dev.service = ascii "Television" ∧
      commandsForService dev.service = powerCommands ++ (keyNames ++ volumeNames)) := by
  have hservice := hknown
  unfold serviceTypeFromString at hservice
  split_ifs at hservice with h h h h h h
  · rw [commandsOf_plain cfg h rfl (by decide) (by decide), h]
    exact Or.inl (by decide)
  · rw [commandsOf_plain cfg h rfl (by decide) (by decide), h]
    exact Or.inl (by decide)
  · rw [commandsOf_plain cfg h rfl (by decide) (by decide), h]
    exact Or.inl (by decide)
  · rw [commandsOf_plain cfg h rfl (by decide) (by decide), h]
    exact Or.inl (by decide)
  · rw [commandsOf_plain cfg h rfl (by decide) (by decide), h]
    exact Or.inl (by decide)
  · right
    refine ⟨?_, h, by rw [h]; decide⟩
    have ht : serviceTypeFromString dev.service = .television := by
      rw [h]
      decide
    unfold constructAccessory plannedAccessory
    dsimp only
    rw [ht]
    rfl
  · exact absurd rfl hservice

/-- The commands of an accessory are those the page offers for its device, as far as they are
wired. -/
theorem mem_commandsOf_iff {cfg : Config} {dev : VirtualDevice} {name : Bytes}
    (hknown : serviceTypeFromString dev.service ≠ .unknown) :
    name ∈ commandsOf (constructAccessory cfg (plannedAccessory dev)) ↔
      Offered dev.service name ∧ Wired (constructAccessory cfg (plannedAccessory dev)) name := by
  unfold Offered Wired
  rcases commandsOf_planned cfg hknown with ⟨hsame, htv, hapart⟩ | ⟨hcommands, htv, hoffer⟩
  · rw [hsame]
    constructor
    · intro hmem
      obtain ⟨hkey, hvolume⟩ := hapart name hmem
      exact ⟨Or.inl hmem, fun h => absurd h hkey, fun h => absurd h hvolume⟩
    · rintro ⟨hmem | ⟨hservice, -⟩, -⟩
      · exact hmem
      · exact absurd hservice htv
  · have hpower : ∀ n ∈ powerCommands, n ∉ [] :: keyNames ∧ n ∉ volumeNames := by decide
    have hkeys : ∀ n ∈ [] :: keyNames, n ∉ volumeNames := by decide
    rw [hcommands, hoffer]
    generalize (constructAccessory cfg (plannedAccessory dev)).remoteKey = remoteKey
    generalize (constructAccessory cfg (plannedAccessory dev)).speaker = speaker
    constructor
    · intro hmem
      rcases List.mem_append.mp hmem with hmem | hvolume
      · rcases List.mem_append.mp hmem with hmem | hkey
        · obtain ⟨hkey, hvolume⟩ := hpower name hmem
          exact ⟨Or.inl (List.mem_append_left _ hmem), fun h => absurd h hkey,
            fun h => absurd h hvolume⟩
        · split_ifs at hkey with hremote
          · have hvolume := hkeys name hkey
            refine ⟨?_, fun _ => hremote, fun h => absurd h hvolume⟩
            rcases List.mem_cons.mp hkey with rfl | hkey
            · exact Or.inr ⟨htv, rfl⟩
            · exact Or.inl (List.mem_append_right _ (List.mem_append_left _ hkey))
          · cases hkey
      · split_ifs at hvolume with hspeaker
        · refine ⟨Or.inl (List.mem_append_right _ (List.mem_append_right _ hvolume)), ?_,
            fun _ => hspeaker⟩
          exact fun h => absurd hvolume (hkeys name h)
        · cases hvolume
    · rintro ⟨hmem | ⟨-, rfl⟩, hremote, hspeaker⟩
      · rcases List.mem_append.mp hmem with hmem | hmem
        · exact List.mem_append_left _ (List.mem_append_left _ hmem)
        · rcases List.mem_append.mp hmem with hkey | hvolume
          · rw [if_pos (hremote (List.mem_cons_of_mem _ hkey))]
            exact List.mem_append_left _ (List.mem_append_right _ (List.mem_cons_of_mem _ hkey))
          · rw [if_pos (hspeaker hvolume)]
            exact List.mem_append_right _ hvolume
      · rw [if_pos (hremote List.mem_cons_self)]
        exact List.mem_append_left _ (List.mem_append_right _ List.mem_cons_self)

/-- Only valid configurations are applied. -/
def Allowed (_ : Bridge) : Event → Prop
  | .write _ _ _ _ _ | .poll _ _ => True
  | .apply cfg => validate cfg = .ok

/-- The device of the configuration that an accessory stands for. -/
structure Stands (cfg : Config) (acc : Accessory) (dev : VirtualDevice) : Prop where
  mem : dev ∈ cfg.devices
  aid : acc.aid = dev.id
  known : serviceTypeFromString dev.service ≠ .unknown
  built : ∃ under, acc = constructAccessory under (plannedAccessory dev)

/-- The invariant of every run. -/
structure Keeps (b : Bridge) : Prop where
  valid : validate b.builder.config = .ok
  shows : ∃ under, b.builder.Shows b.builder.config under
  offered : ∀ p ∈ b.pending, ∃ dev ∈ b.builder.config.devices,
    dev.id = p.aid ∧ Offered dev.service p.name
  settled : ∀ aid, (b.values aid).pos = (b.values aid).target

namespace Keeps

variable {b : Bridge} {aid : UInt16} {acc : Accessory} {dev : VirtualDevice}

/-- Any accessory of the database is the bridge itself or stands for a device. -/
theorem stands (h : Keeps b)
    (hfind : (b.builder.accessories.find? fun acc => acc.aid == aid) = some acc) :
    acc.aid = aid ∧ (acc = bridgeAccessory ∨ ∃ dev, Stands b.builder.config acc dev) := by
  obtain ⟨under, hshows⟩ := h.shows
  have haid : acc.aid = aid := by simpa using List.find?_some hfind
  have hmem : acc ∈ withKey Accessory.aid aid b.builder.accessories :=
    mem_withKey.mpr ⟨List.mem_of_find?_eq_some hfind, haid⟩
  refine ⟨haid, ?_⟩
  rw [hshows.accessories aid, List.mem_append] at hmem
  rcases hmem with hbridge | hplanned
  · exact Or.inl (List.mem_singleton.mp (mem_withKey.mp hbridge).1)
  · obtain ⟨planned, hmem, rfl⟩ := List.mem_map.mp hplanned
    obtain ⟨hplan, -⟩ := mem_withKey.mp hmem
    rw [planAccessories_eq] at hplan
    obtain ⟨dev, hdev, rfl⟩ := List.mem_map.mp hplan
    obtain ⟨hdev, hknown⟩ := List.mem_filter.mp hdev
    exact Or.inr ⟨dev, hdev, constructAccessory_aid _ _, of_decide_eq_true hknown, _, rfl⟩

/-- Every device of a known service has its accessory. -/
theorem exists_stands (h : Keeps b) (hdev : dev ∈ b.builder.config.devices)
    (hknown : serviceTypeFromString dev.service ≠ .unknown) :
    ∃ acc, (b.builder.accessories.find? fun acc => acc.aid == dev.id) = some acc ∧
      Stands b.builder.config acc dev ∧
      ∀ other, other ∈ b.builder.accessories ∧ other.aid = dev.id ↔ other = acc := by
  obtain ⟨under, hshows⟩ := h.shows
  have hplan : plannedAccessory dev ∈ (planAccessories b.builder.config).accessories := by
    rw [planAccessories_eq]
    exact List.mem_map_of_mem (List.mem_filter.mpr ⟨hdev, decide_eq_true hknown⟩)
  have hone := withKey_of_mem (planned_of_valid h.valid).1 hplan
  have hbridge := Builder.withKey_bridge ((planned_of_valid h.valid).2 _ hplan).2
  have haccessories := hshows.accessories dev.id
  rw [show dev.id = (plannedAccessory dev).aid from rfl, hone, hbridge] at haccessories
  refine ⟨constructAccessory (under dev.id) (plannedAccessory dev), ?_,
    ⟨hdev, constructAccessory_aid _ _, hknown, under dev.id, rfl⟩, ?_⟩
  swap
  · intro other
    rw [← @mem_withKey _ _ _ Accessory.aid]
    exact haccessories ▸ List.mem_singleton
  have hhead := @List.head?_filter _ (fun acc : Accessory => acc.aid == dev.id)
    b.builder.accessories
  rw [← hhead]
  exact congrArg List.head? haccessories

/-- What an accessory may send is offered for its device. -/
theorem offered_of_command (hstands : Stands b.builder.config acc dev) {name : Bytes}
    (hname : name ∈ commandsOf acc) : Offered dev.service name := by
  obtain ⟨under, rfl⟩ := hstands.built
  exact ((mem_commandsOf_iff hstands.known).mp hname).1

/-- A command that resolves is the device's own. -/
theorem resolved (h : Keeps b) (hdev : dev ∈ b.builder.config.devices) {name : Bytes}
    {slot : CommandSlot} (hslot : resolveSlot b.builder.config dev.id name = some slot) :
    slot ∈ dev.commands ∧ slot.name = name := by
  obtain ⟨dev', hfind, hcommand⟩ := Option.bind_eq_some_iff.mp hslot
  have hid : dev'.id = dev.id := by simpa using List.find?_some hfind
  have hsame := List.inj_on_of_nodup_map (validate_ids_nodup h.valid)
    (List.mem_of_find?_eq_some hfind) hdev hid
  rw [hsame] at hcommand
  exact ⟨List.mem_of_find?_eq_some hcommand, by simpa using List.find?_some hcommand⟩

theorem step (h : Keeps b) {e : Event} (hallowed : Allowed b e) : Keeps (b.step e) := by
  cases e with
  | poll now tx =>
      refine ⟨h.valid, h.shows, ?_, h.settled⟩
      intro p hp
      simp only [Bridge.step, pollPendingSends_eq] at hp ⊢
      obtain ⟨q, hq, hpolled⟩ := List.mem_filterMap.mp hp
      obtain ⟨haid, hname⟩ := command_of_polled hpolled
      rw [haid, hname]
      exact h.offered q hq
  | apply cfg =>
      obtain ⟨under, hshows⟩ := h.shows
      have happlied := hshows.apply h.valid hallowed
      have hbuilt : ∃ under, (b.builder.applyConfigChange cfg).Shows
          (b.builder.applyConfigChange cfg).config under := by
        rw [happlied.config]
        exact ⟨_, happlied⟩
      refine ⟨?_, hbuilt, ?_, ?_⟩
      · change validate (b.builder.applyConfigChange cfg).config = .ok
        rw [happlied.config]
        exact hallowed
      · exact fun p hp => (nomatch hp)
      · intro aid
        change (if aid ∈ _ then ({} : Values) else b.values aid).pos =
          (if aid ∈ _ then ({} : Values) else b.values aid).target
        split_ifs
        · rfl
        · exact h.settled aid
  | write aid part w now tx =>
      unfold Bridge.step
      dsimp only
      cases hfind : b.builder.accessories.find? fun acc => acc.aid == aid with
      | none => exact h
      | some acc =>
          dsimp only
          refine ⟨h.valid, h.shows, ?_, ?_⟩
          · intro p hp
            rcases update_pending hp with hold | ⟨hpaid, hname⟩
            · exact h.offered p hold
            · rcases (h.stands hfind).2 with rfl | ⟨dev, hstands⟩
              · cases hname
              · refine ⟨dev, hstands.mem, ?_, offered_of_command hstands hname⟩
                rw [hpaid, hstands.aid]
          · intro x
            dsimp only
            by_cases hx : x = aid
            · subst hx
              rw [Function.update_self]
              exact update_settled (h.settled x)
            · rw [Function.update_of_ne hx]
              exact h.settled x

theorem init {cfg : Config} (hvalid : validate cfg = .ok) : Keeps (Bridge.machine cfg).init where
  valid := by
    rw [Bridge.machine, (Builder.buildAccessories_shows hvalid).config]
    exact hvalid
  shows := by
    rw [Bridge.machine, (Builder.buildAccessories_shows hvalid).config]
    exact ⟨_, Builder.buildAccessories_shows hvalid⟩
  offered := fun p hp => nomatch hp
  settled := fun _ => rfl

theorem run {cfg : Config} (hvalid : validate cfg = .ok) {events : List Event}
    (hguard : (Bridge.machine cfg).Guarded Allowed events) :
    Keeps ((Bridge.machine cfg).run events) :=
  (Bridge.machine cfg).guarded_run_induction (P := fun _ b => Keeps b) (init hvalid)
    (fun _ _ hallowed h => h.step hallowed) events hguard

end Keeps

/-- What goes out in a poll is counted for the accessories the poll sends for. -/
theorem keyed_poll (b : Bridge) (now : UInt32) (tx : UInt16 → Transmitter) :
    (b.keyed (.poll now tx)).map Prod.fst = (pollPendingSends b.sender now tx).2 := by
  have hresolves : ∀ p : PendingSeq, p.sends b.builder.config now tx = true →
      ∃ slot, resolveSlot b.builder.config p.aid p.name = some slot := by
    intro p hsends
    rw [PendingSeq.sends, PendingSeq.firesNow, Bool.and_eq_true] at hsends
    cases hslot : resolveSlot b.builder.config p.aid p.name with
    | none =>
        rw [hslot] at hsends
        cases hsends.2
    | some slot => exact ⟨slot, rfl⟩
  rw [pollPendingSends_eq, Bridge.keyed, List.map_filterMap]
  dsimp only [Bridge.sender]
  rw [← List.filterMap_eq_map]
  refine List.filterMap_congr fun p hp => ?_
  obtain ⟨slot, hslot⟩ := hresolves p (List.mem_filter.mp hp).2
  rw [hslot]
  rfl

/-- Whatever goes out is a learned command of a device, and one the page offers for it or the
unnamed command of a Television. -/
theorem Keeps.keyed_offered {b : Bridge} (h : Keeps b) (e : Event) :
    ∀ sent ∈ b.keyed e, ∃ dev ∈ b.builder.config.devices,
      dev.id = sent.1 ∧ sent.2 ∈ dev.commands ∧ sent.2.code.isLearned = true ∧
        Offered dev.service sent.2.name := by
  intro sent hsent
  cases e with
  | write aid part w now tx =>
      unfold Bridge.keyed at hsent
      dsimp only at hsent
      cases hfind : b.builder.accessories.find? fun acc => acc.aid == aid with
      | none =>
          rw [hfind] at hsent
          cases hsent
      | some acc =>
          rw [hfind] at hsent
          obtain ⟨slot, hslot, rfl⟩ := List.mem_map.mp hsent
          obtain ⟨-, name, hname, hsend, -⟩ := update_keyed hslot
          obtain ⟨haid, hacc⟩ := h.stands hfind
          rcases hacc with rfl | ⟨dev, hstands⟩
          · cases hname
          · have hresolve := hsend.1
            rw [hstands.aid] at hresolve
            obtain ⟨hcommand, hnamed⟩ := h.resolved hstands.mem hresolve
            refine ⟨dev, hstands.mem, hstands.aid.symm.trans haid, hcommand,
              isLearned_of_fires hsend.2, ?_⟩
            rw [hnamed]
            exact Keeps.offered_of_command hstands hname
  | poll now tx =>
      obtain ⟨p, hp, hslot⟩ := List.mem_filterMap.mp hsent
      obtain ⟨slot, hresolve, rfl⟩ := Option.map_eq_some_iff.mp hslot
      obtain ⟨hp, hsends⟩ := List.mem_filter.mp hp
      obtain ⟨dev, hdev, hid, hoffered⟩ := h.offered p hp
      have hown := hresolve
      rw [← hid] at hown
      obtain ⟨hcommand, hnamed⟩ := h.resolved hdev hown
      rw [PendingSeq.sends, PendingSeq.firesNow, Bool.and_eq_true, hresolve, Option.map_some]
        at hsends
      refine ⟨dev, hdev, hid, hcommand, isLearned_of_fires hsends.2, ?_⟩
      rw [hnamed]
      exact hoffered
  | apply cfg => cases hsent

def upKey : CommandSlot where
  name := ascii "key_up"
  code := { kind := .rf, pulses := [350, 1050], freqMHz := 433 }

def televisionWithKey : VirtualDevice where
  id := 2
  service := ascii "Television"
  name := ascii "TV"
  commands := [upKey]

end RfIrBlaster.Home
