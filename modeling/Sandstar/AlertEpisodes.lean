import Sandstar.Alerts
import Sandstar.Runs

set_option autoImplicit false

/-!
# Alert episodes

An episode of a channel is a longest stretch of checks that all find it in an
alerting status. The checks of a run are kept with the mails each one sent, newest
first, and the properties of a run are read off that list. An episode that begins
within the cooldown is suppressed for good: the manager tracks the channel from
then on and never looks at the cooldown again, and when the episode ends a recovery
is sent all the same.
-/
namespace Sandstar.Alerts

variable {F : Type}

section Episodes

/-- A check of the past with the mails it sent. -/
structure Entry (F : Type) where
  check : Check F
  sent : List (Notice F)

def alertingIn (config : AlertConfig) (channels : List (ChannelSnapshot F)) (id : UInt32) : Bool :=
  channels.any fun ch => ch.id == id && config.isAlertStatus ch.status

def Check.alerting (c : Check F) (config : AlertConfig) (id : UInt32) : Bool :=
  alertingIn config c.channels id

def Check.statusOf (c : Check F) (id : UInt32) : Option String :=
  (c.channels.find? fun ch => ch.id == id).map ChannelSnapshot.status

def Notice.isAlertFor (n : Notice F) (id : UInt32) : Bool :=
  n.alertType != .recovery && n.channel.id == id

def alertTimes (past : List (Entry F)) (id : UInt32) : List Instant :=
  past.flatMap fun e => (e.sent.filter fun n => n.isAlertFor id).map fun _ => e.check.now

def lastAlert (past : List (Entry F)) (id : UInt32) : Option Instant :=
  (alertTimes past id).head?

variable (config : AlertConfig)

def episode (past : List (Entry F)) (id : UInt32) : List (Entry F) :=
  past.takeWhile fun e => e.check.alerting config id

def beforeEpisode (past : List (Entry F)) (id : UInt32) : List (Entry F) :=
  past.dropWhile fun e => e.check.alerting config id

def AlertedIn (past : List (Entry F)) (id : UInt32) : Prop :=
  alertTimes (episode config past id) id ≠ []

/-- Two alerts for one channel are at least the cooldown apart. -/
def Spaced (past : List (Entry F)) : Prop :=
  ∀ id, (alertTimes past id).Pairwise fun later earlier => earlier + config.cooldown ≤ later

/-- A channel that is alerting when no alert for it is younger than the cooldown has
    been alerted in this episode. -/
def Raised (past : List (Entry F)) : Prop :=
  ∀ e ∈ past.head?, ∀ id, e.check.alerting config id = true →
    (∀ last ∈ lastAlert past id, last + config.cooldown ≤ e.check.now) → AlertedIn config past id

/-- A recovery is sent for a channel that is reported Ok after an episode that was
    alerted. -/
def Recovered : List (Entry F) → Prop
  | [] => True
  | e :: past => ∀ n ∈ e.sent, n.alertType = .recovery →
      e.check.statusOf n.channel.id = some "Ok" ∧ AlertedIn config past n.channel.id

/-- The ongoing episode began less than the cooldown after the channel's last alert. -/
def Suppressed (past : List (Entry F)) (id : UInt32) : Prop :=
  ∃ first ∈ (episode config past id).getLast?,
    ∃ last ∈ lastAlert (beforeEpisode config past id) id,
      first.check.now < last + config.cooldown

structure Alerting (F : Type) where
  manager : AlertManager F
  past : List (Entry F)

variable [FloatOps F]

def Alerting.check (s : Alerting F) (c : Check F) : Alerting F :=
  ⟨(s.manager.checkChannels c).1, ⟨c, (s.manager.checkChannels c).2⟩ :: s.past⟩

/-- No suppressed episode outlasts its cooldown; where recoveries are mailed, every
    episode ends in a reported Ok and was not suppressed. -/
def Settles (s : Alerting F) (c : Check F) : Prop :=
  ∀ id, episode config s.past id ≠ [] →
    (c.alerting config id = true → Suppressed config s.past id →
      ∀ last ∈ lastAlert s.past id, c.now < last + config.cooldown) ∧
    (c.alerting config id = false → config.alertOnRecovery = true →
      c.statusOf id = some "Ok" ∧ ¬ Suppressed config s.past id)

end Episodes

section Check

def AlertManager.raises (m : AlertManager F) (now : Instant) (id : UInt32) : Bool :=
  (m.activeAlerts.get id).isNone && !m.withinCooldown id now

@[simp] theorem pushHistory_config (m : AlertManager F) (h : AlertHistoryEntry F) :
    (m.pushHistory h).config = m.config := rfl

@[simp] theorem pushHistory_active (m : AlertManager F) (h : AlertHistoryEntry F) :
    (m.pushHistory h).activeAlerts = m.activeAlerts := rfl

@[simp] theorem pushHistory_last (m : AlertManager F) (h : AlertHistoryEntry F) :
    (m.pushHistory h).lastAlertTime = m.lastAlertTime := rfl

@[simp] theorem activate_config (m : AlertManager F) (ch : ChannelSnapshot F) (now : Instant) :
    (m.activate ch now).config = m.config := rfl

@[simp] theorem activate_last (m : AlertManager F) (ch : ChannelSnapshot F) (now : Instant) :
    (m.activate ch now).lastAlertTime = m.lastAlertTime := rfl

theorem activate_isSome (m : AlertManager F) (ch : ChannelSnapshot F) (now : Instant)
    (id : UInt32) : ((m.activate ch now).activeAlerts.get id).isSome =
      ((m.activeAlerts.get id).isSome || ch.id == id) := by
  simp only [AlertManager.activate, Table.get_insert]
  by_cases h : id = ch.id
  · simp [h]
  · simp [h, Ne.symm h]

theorem alertingIn_concat (config : AlertConfig) (seen : List (ChannelSnapshot F))
    (ch : ChannelSnapshot F) (id : UInt32) : alertingIn config (seen ++ [ch]) id =
      (alertingIn config seen id || (ch.id == id && config.isAlertStatus ch.status)) := by
  simp [alertingIn]

structure Scanned (m : AlertManager F) (now : Instant) (seen : List (ChannelSnapshot F))
    (s : Scan F) : Prop where
  config : s.manager.config = m.config
  active : ∀ id, (s.manager.activeAlerts.get id).isSome =
    ((m.activeAlerts.get id).isSome || alertingIn m.config seen id)
  last : ∀ id, s.manager.lastAlertTime.get id =
    if alertingIn m.config seen id && m.raises now id then some now else m.lastAlertTime.get id
  still : ∀ id, s.stillAlerting.contains id = alertingIn m.config seen id
  alerts : ∀ id, (s.sent.filter fun n => n.isAlertFor id).length =
    if alertingIn m.config seen id && m.raises now id then 1 else 0
  kinds : ∀ n ∈ s.sent, n.alertType ≠ .recovery

theorem scanned_nil (m : AlertManager F) (now : Instant) : Scanned m now [] ⟨m, [], []⟩ := by
  constructor <;> simp [alertingIn]

theorem Scanned.fresh {m : AlertManager F} {now : Instant} {seen : List (ChannelSnapshot F)}
    {s : Scan F} (h : Scanned m now seen s) {id : UInt32}
    (hid : s.manager.activeAlerts.get id = none) :
    m.activeAlerts.get id = none ∧ alertingIn m.config seen id = false ∧
      m.raises now id = !s.manager.withinCooldown id now := by
  have hactive := h.active id
  rw [hid] at hactive
  simp only [Option.isSome_none, Bool.false_eq, Bool.or_eq_false_iff] at hactive
  obtain ⟨hm, hseen⟩ := hactive
  have hm : m.activeAlerts.get id = none := by simpa using hm
  refine ⟨hm, hseen, ?_⟩
  have hlast := h.last id
  simp only [hseen, Bool.false_and, Bool.false_eq_true, if_false] at hlast
  simp [AlertManager.raises, AlertManager.withinCooldown, hm, hlast, h.config]

theorem Scanned.step {m : AlertManager F} {c : Check F} {seen : List (ChannelSnapshot F)}
    {s : Scan F} (h : Scanned m c.now seen s) (ch : ChannelSnapshot F) :
    Scanned m c.now (seen ++ [ch]) (c.scan s ch) := by
  by_cases hstatus : m.config.isAlertStatus ch.status = true
  · have hgrow : ∀ id, alertingIn m.config (seen ++ [ch]) id =
        (alertingIn m.config seen id || ch.id == id) := by
      intro id
      rw [alertingIn_concat, hstatus, Bool.and_true]
    have hstill : ∀ id, (s.stillAlerting ++ [ch.id]).contains id =
        alertingIn m.config (seen ++ [ch]) id := by
      intro id
      rw [hgrow, ← h.still]
      by_cases heq : ch.id = id
      · simp [heq]
      · simp [heq, Ne.symm heq]
    have hconfig := h.config
    unfold Check.scan
    simp only [hconfig, hstatus, if_true]
    cases hid : s.manager.activeAlerts.get ch.id with
    | some a =>
      -- already tracked: the channel was active before or has raised its alert already
      have htracked := h.active ch.id
      rw [hid] at htracked
      have hsame : ∀ id, (alertingIn m.config (seen ++ [ch]) id && m.raises c.now id) =
          (alertingIn m.config seen id && m.raises c.now id) := by
        intro id
        rw [hgrow]
        by_cases heq : ch.id = id
        · subst heq
          cases hm : m.activeAlerts.get ch.id <;> simp_all [AlertManager.raises]
        · simp [beq_false_of_ne heq]
      refine ⟨hconfig, fun id => ?_, fun id => ?_, hstill, fun id => ?_, h.kinds⟩
      · rw [hgrow, h.active id]
        by_cases heq : ch.id = id
        · subst heq
          simpa using htracked.symm
        · simp [beq_false_of_ne heq]
      · rw [hsame]
        exact h.last id
      · rw [hsame]
        exact h.alerts id
    | none =>
      obtain ⟨hm, hseen, hraises⟩ := h.fresh hid
      have hactive : ∀ id, ((s.manager.activate ch c.now).activeAlerts.get id).isSome =
          ((m.activeAlerts.get id).isSome || alertingIn m.config (seen ++ [ch]) id) := by
        intro id
        rw [activate_isSome, h.active id, hgrow, Bool.or_assoc]
      by_cases hwithin : s.manager.withinCooldown ch.id c.now = true
      · have hsame : ∀ id, (alertingIn m.config (seen ++ [ch]) id && m.raises c.now id) =
            (alertingIn m.config seen id && m.raises c.now id) := by
          intro id
          rw [hgrow]
          by_cases heq : ch.id = id
          · subst heq
            simp [hraises, hwithin]
          · simp [beq_false_of_ne heq]
        simp only [hwithin, if_true]
        refine ⟨hconfig, hactive, fun id => ?_, hstill, fun id => ?_, h.kinds⟩
        · rw [hsame]
          exact h.last id
        · rw [hsame]
          exact h.alerts id
      · rw [Bool.not_eq_true] at hwithin
        have hnew : (alertingIn m.config (seen ++ [ch]) ch.id && m.raises c.now ch.id) = true := by
          simp [hgrow, hraises, hwithin]
        simp only [hwithin, Bool.false_eq_true, if_false]
        refine ⟨hconfig, hactive, fun id => ?_, hstill, fun id => ?_, ?_⟩
        · by_cases heq : id = ch.id
          · subst heq
            simp [hnew]
          · simp [Table.get_insert_ne _ _ heq, hgrow, h.last id, Ne.symm heq]
        · have halert : (s.manager.dispatchAlert
              (if ch.status == "Fault" then .fault else .down) ch c).isAlertFor id =
                (ch.id == id) := by
            simp only [Notice.isAlertFor, AlertManager.dispatchAlert]
            split <;> simp
          rw [List.filter_append, List.length_append, h.alerts id]
          simp only [List.filter_singleton, halert]
          by_cases heq : ch.id = id
          · subst heq
            simp [hnew, hseen]
          · simp [beq_false_of_ne heq, hgrow]
        · intro n hn
          rcases List.mem_append.1 hn with hn | hn
          · exact h.kinds n hn
          · rw [List.mem_singleton.1 hn]
            simp only [AlertManager.dispatchAlert]
            split <;> simp
  · have hsame : ∀ id, alertingIn m.config (seen ++ [ch]) id = alertingIn m.config seen id := by
      intro id
      rw [alertingIn_concat, Bool.eq_false_iff.2 hstatus, Bool.and_false, Bool.or_false]
    have hscan : c.scan s ch = s := by
      simp [Check.scan, h.config, hstatus]
    rw [hscan]
    exact ⟨h.config, by simpa [hsame] using h.active, by simpa [hsame] using h.last,
      by simpa [hsame] using h.still, by simpa [hsame] using h.alerts, h.kinds⟩

theorem scanned_all (m : AlertManager F) (c : Check F) :
    Scanned m c.now c.channels (c.channels.foldl c.scan ⟨m, [], []⟩) := by
  induction c.channels using List.reverseRecOn with
  | nil => exact scanned_nil m c.now
  | append_singleton seen ch ih =>
    rw [List.foldl_concat]
    exact ih.step ch

def RecoverySent (sent : List (Notice F)) (id : UInt32) : Prop :=
  ∃ n ∈ sent, n.alertType = .recovery ∧ n.channel.id = id

theorem recoverySent_concat (sent : List (Notice F)) (n : Notice F) (id : UInt32) :
    RecoverySent (sent ++ [n]) id ↔
      RecoverySent sent id ∨ n.alertType = .recovery ∧ n.channel.id = id := by
  simp [RecoverySent, or_and_right, exists_or]

structure Recovering (s₀ : Scan F) (seen : List UInt32) (s : Scan F) : Prop where
  config : s.manager.config = s₀.manager.config
  last : s.manager.lastAlertTime = s₀.manager.lastAlertTime
  active : ∀ id, s.manager.activeAlerts.get id =
    if id ∈ seen then none else s₀.manager.activeAlerts.get id
  alerts : ∀ id, (s.sent.filter fun n => n.isAlertFor id) =
    s₀.sent.filter fun n => n.isAlertFor id
  recoveries : ∀ id, RecoverySent s.sent id ↔ RecoverySent s₀.sent id ∨
    id ∈ seen ∧ (s₀.manager.activeAlerts.get id).isSome ∧
      s₀.manager.config.alertOnRecovery = true

variable [FloatOps F]

theorem Recovering.step {c : Check F} {s₀ s : Scan F} {seen : List UInt32}
    (h : Recovering s₀ seen s) (id : UInt32) : Recovering s₀ (seen ++ [id]) (c.recover s id) := by
  have hid := h.active id
  cases hget : s.manager.activeAlerts.get id with
  | none =>
    have hrecover : c.recover s id = s := by
      simp [Check.recover, hget]
    have hgone : id ∈ seen ∨ s₀.manager.activeAlerts.get id = none := by
      rw [hget] at hid
      by_cases hmem : id ∈ seen
      · exact .inl hmem
      · simp only [hmem, if_false] at hid
        exact .inr hid.symm
    rw [hrecover]
    refine ⟨h.config, h.last, fun a => ?_, h.alerts, fun a => ?_⟩
    · rw [h.active a]
      by_cases ha : a = id
      · subst ha
        rcases hgone with hgone | hgone <;> simp [hgone]
      · simp [ha]
    · rw [h.recoveries a]
      by_cases ha : a = id
      · subst ha
        rcases hgone with hgone | hgone <;> simp [hgone]
      · simp [ha]
  | some alert =>
    have hfresh : id ∉ seen ∧ s₀.manager.activeAlerts.get id = some alert := by
      rw [hget] at hid
      by_cases hmem : id ∈ seen
      · simp [hmem] at hid
      · simp only [hmem, if_false] at hid
        exact ⟨hmem, hid.symm⟩
    have hactive : ∀ a, (s.manager.activeAlerts.erase id).get a =
        if a ∈ seen ++ [id] then none else s₀.manager.activeAlerts.get a := by
      intro a
      rw [Table.get_erase, h.active a]
      by_cases ha : a = id <;> simp [ha]
    unfold Check.recover
    simp only [hget]
    have hflag : s.manager.config.alertOnRecovery = s₀.manager.config.alertOnRecovery := by
      rw [h.config]
    by_cases hrec : s.manager.config.alertOnRecovery = true
    · simp only [hrec, if_true]
      refine ⟨h.config, h.last, hactive, fun a => ?_, fun a => ?_⟩
      · rw [List.filter_append, h.alerts a]
        simp [Notice.isAlertFor, AlertManager.dispatchRecovery]
      · rw [recoverySent_concat, h.recoveries a]
        by_cases ha : id = a
        · subst ha
          simp [AlertManager.dispatchRecovery, hfresh.2, ← hflag, hrec]
        · simp [AlertManager.dispatchRecovery, ha, Ne.symm ha]
    · simp only [hrec, Bool.false_eq_true, if_false]
      refine ⟨h.config, h.last, hactive, h.alerts, fun a => ?_⟩
      rw [h.recoveries a]
      simp [← hflag, hrec]

theorem recovering_all (c : Check F) (s₀ : Scan F) (ids : List UInt32) :
    Recovering s₀ ids (ids.foldl c.recover s₀) := by
  induction ids using List.reverseRecOn with
  | nil => exact ⟨rfl, rfl, by simp, fun _ => rfl, by simp⟩
  | append_singleton seen id ih =>
    rw [List.foldl_concat]
    exact ih.step id

structure Checked (m : AlertManager F) (c : Check F) : Prop where
  config : (m.checkChannels c).1.config = m.config
  active : ∀ id, ((m.checkChannels c).1.activeAlerts.get id).isSome = c.alerting m.config id
  last : ∀ id, (m.checkChannels c).1.lastAlertTime.get id =
    if c.alerting m.config id && m.raises c.now id then some c.now else m.lastAlertTime.get id
  alerts : ∀ id, ((m.checkChannels c).2.filter fun n => n.isAlertFor id).length =
    if c.alerting m.config id && m.raises c.now id then 1 else 0
  recoveries : ∀ id, RecoverySent (m.checkChannels c).2 id ↔
    (m.activeAlerts.get id).isSome ∧ c.alerting m.config id = false ∧
      m.config.alertOnRecovery = true

theorem checked (m : AlertManager F) (c : Check F) (henabled : m.config.enabled = true) :
    Checked m c := by
  obtain ⟨scanned, hscanned⟩ : ∃ s, c.channels.foldl c.scan ⟨m, [], []⟩ = s := ⟨_, rfl⟩
  obtain ⟨ids, hids⟩ : ∃ ids, ((c.order.walk scanned.manager.activeAlerts).filter
      fun id => !scanned.stillAlerting.contains id) = ids := ⟨_, rfl⟩
  have hscan : Scanned m c.now c.channels scanned := hscanned ▸ scanned_all m c
  have hrec := recovering_all c scanned ids
  have hcheck : m.checkChannels c =
      ((ids.foldl c.recover scanned).manager, (ids.foldl c.recover scanned).sent) := by
    simp only [AlertManager.checkChannels, henabled, Bool.not_true, Bool.false_eq_true, if_false,
      hscanned, hids]
  have hmem : ∀ id, id ∈ ids ↔
      (m.activeAlerts.get id).isSome ∧ c.alerting m.config id = false := by
    intro id
    rw [← hids, List.mem_filter, c.order.mem, Table.mem_keys, ← Option.isSome_iff_exists,
      hscan.active, hscan.still]
    cases halert : alertingIn m.config c.channels id <;> simp [Check.alerting, halert]
  have hnone : ∀ id, ¬ RecoverySent scanned.sent id := by
    rintro id ⟨n, hn, hkind, -⟩
    exact hscan.kinds n hn hkind
  constructor
  · rw [hcheck]
    exact hrec.config.trans hscan.config
  · intro id
    rw [hcheck]
    simp only [hrec.active, hmem]
    by_cases hactive : (m.activeAlerts.get id).isSome = true ∧ c.alerting m.config id = false
    · simp [hactive]
    · rw [if_neg hactive, hscan.active]
      cases halert : alertingIn m.config c.channels id <;> simp_all [Check.alerting]
  · intro id
    rw [hcheck]
    simp only [hrec.last]
    exact hscan.last id
  · intro id
    rw [hcheck]
    simp only [hrec.alerts]
    exact hscan.alerts id
  · intro id
    rw [hcheck]
    simp only [hrec.recoveries, hmem, hnone, false_or, hscan.active, hscan.config]
    constructor
    · rintro ⟨⟨hactive, halert⟩, -, hflag⟩
      exact ⟨hactive, halert, hflag⟩
    · rintro ⟨hactive, halert, hflag⟩
      exact ⟨⟨hactive, halert⟩, by simp [hactive], hflag⟩

end Check

section Runs

theorem alertTimes_append (older newer : List (Entry F)) (id : UInt32) :
    alertTimes (newer ++ older) id = alertTimes newer id ++ alertTimes older id :=
  List.flatMap_append

theorem mem_alertTimes {past : List (Entry F)} {id : UInt32} {t : Instant}
    (h : t ∈ alertTimes past id) : ∃ e ∈ past, e.check.now = t := by
  obtain ⟨e, he, ht⟩ := List.mem_flatMap.1 h
  obtain ⟨n, -, rfl⟩ := List.mem_map.1 ht
  exact ⟨e, he, rfl⟩

variable {config : AlertConfig}

theorem episode_cons (e : Entry F) (past : List (Entry F)) (id : UInt32) :
    episode config (e :: past) id =
      if e.check.alerting config id = true then e :: episode config past id else [] :=
  List.takeWhile_cons

theorem episode_append (past : List (Entry F)) (id : UInt32) :
    episode config past id ++ beforeEpisode config past id = past :=
  List.takeWhile_append_dropWhile

theorem alertTimes_split (past : List (Entry F)) (id : UInt32) :
    alertTimes past id = alertTimes (episode config past id) id ++
      alertTimes (beforeEpisode config past id) id := by
  rw [← alertTimes_append, episode_append]

theorem beforeEpisode_of_nil {past : List (Entry F)} {id : UInt32}
    (h : episode config past id = []) : beforeEpisode config past id = past := by
  have happend : episode config past id ++ beforeEpisode config past id = past :=
    episode_append past id
  rwa [h, List.nil_append] at happend

theorem beforeEpisode_cons {e : Entry F} {past : List (Entry F)} {id : UInt32}
    (h : e.check.alerting config id = true) :
    beforeEpisode config (e :: past) id = beforeEpisode config past id :=
  List.dropWhile_cons_of_pos h

theorem suppressed_begin {e : Entry F} {past : List (Entry F)} {id : UInt32}
    (h : e.check.alerting config id = true) (hnone : episode config past id = []) :
    Suppressed config (e :: past) id ↔
      ∃ last ∈ lastAlert past id, e.check.now < last + config.cooldown := by
  unfold Suppressed
  rw [beforeEpisode_cons h, beforeEpisode_of_nil hnone, episode_cons, if_pos h, hnone]
  simp

theorem suppressed_continue {e : Entry F} {past : List (Entry F)} {id : UInt32}
    (h : e.check.alerting config id = true) (hsome : episode config past id ≠ []) :
    Suppressed config (e :: past) id ↔ Suppressed config past id := by
  unfold Suppressed
  rw [beforeEpisode_cons h, episode_cons, if_pos h]
  cases hep : episode config past id with
  | nil => exact absurd hep hsome
  | cons a as => rw [List.getLast?_cons_cons]

structure Tracked (config : AlertConfig) (s : Alerting F) : Prop where
  configured : s.manager.config = config
  active : ∀ id, (s.manager.activeAlerts.get id).isSome ↔ episode config s.past id ≠ []
  last : ∀ id, s.manager.lastAlertTime.get id = lastAlert s.past id
  alerted : ∀ id, episode config s.past id ≠ [] →
    (AlertedIn config s.past id ↔ ¬ Suppressed config s.past id)
  spaced : Spaced config s.past

theorem tracked_new (config : AlertConfig) (deviceInfo : String) :
    Tracked config (⟨AlertManager.new config deviceInfo, []⟩ : Alerting F) where
  configured := rfl
  active id := by simp [AlertManager.new, episode]
  last id := rfl
  alerted id h := absurd rfl h
  spaced id := List.Pairwise.nil

def Later (s : Alerting F) (c : Check F) : Prop := ∀ e ∈ s.past, e.check.now ≤ c.now

theorem Later.last {s : Alerting F} {c : Check F} (h : Later s c) {id : UInt32} {t : Instant}
    (ht : t ∈ lastAlert s.past id) : t ≤ c.now := by
  obtain ⟨e, he, rfl⟩ := mem_alertTimes (List.mem_of_mem_head? ht)
  exact h e he

/-- A new episode is alerted unless it begins within the cooldown. -/
theorem Tracked.raises {s : Alerting F} (h : Tracked config s) {c : Check F} (hc : Later s c)
    (id : UInt32) : s.manager.raises c.now id = true ↔
      episode config s.past id = [] ∧
        ∀ last ∈ lastAlert s.past id, last + config.cooldown ≤ c.now := by
  have hactive := h.active id
  have hwithin : s.manager.withinCooldown id c.now = false ↔
      ∀ last ∈ lastAlert s.past id, last + config.cooldown ≤ c.now := by
    unfold AlertManager.withinCooldown
    rw [h.last, h.configured]
    cases hlast : lastAlert s.past id with
    | none => simp
    | some t =>
      have hle := hc.last hlast
      simp only [decide_eq_false_iff_not, not_lt, Option.mem_some_iff, forall_eq']
      rw [Nat.le_sub_iff_add_le hle, Nat.add_comm]
  unfold AlertManager.raises
  cases hget : s.manager.activeAlerts.get id with
  | none => simp_all
  | some a => simp_all

theorem not_alertedIn_of_nil {past : List (Entry F)} {id : UInt32}
    (h : episode config past id = []) : ¬ AlertedIn config past id := by
  unfold AlertedIn
  simp [h, alertTimes]

/-- Every alert for the channel is at least as old as the last one. -/
theorem le_lastAlert {past : List (Entry F)} (h : Spaced config past) {id : UInt32} {t : Instant}
    (ht : t ∈ alertTimes past id) : ∃ last ∈ lastAlert past id, t ≤ last := by
  have hspaced := h id
  unfold lastAlert
  cases htimes : alertTimes past id with
  | nil => simp [htimes] at ht
  | cons last older =>
    rw [htimes] at ht hspaced
    refine ⟨last, rfl, ?_⟩
    rcases List.mem_cons.1 ht with rfl | ht
    · exact Nat.le_refl _
    · exact Nat.le_trans (Nat.le_add_right _ _) ((List.pairwise_cons.1 hspaced).1 t ht)

variable [FloatOps F]

theorem alertTimes_own {m : AlertManager F} (henabled : m.config.enabled = true) (c : Check F)
    (id : UInt32) : alertTimes [⟨c, (m.checkChannels c).2⟩] id =
      if c.alerting m.config id && m.raises c.now id then [c.now] else [] := by
  have hlength := (checked m c henabled).alerts id
  have hown : alertTimes [⟨c, (m.checkChannels c).2⟩] id =
      List.replicate ((m.checkChannels c).2.filter fun n => n.isAlertFor id).length c.now := by
    simp [alertTimes, List.map_const']
  rw [hown, hlength]
  split <;> rfl

theorem alertTimes_check {s : Alerting F} (henabled : s.manager.config.enabled = true)
    (c : Check F) (id : UInt32) : alertTimes (s.check c).past id =
      if c.alerting s.manager.config id && s.manager.raises c.now id then
        c.now :: alertTimes s.past id
      else alertTimes s.past id := by
  have happend : alertTimes (s.check c).past id =
      alertTimes [⟨c, (s.manager.checkChannels c).2⟩] id ++ alertTimes s.past id :=
    alertTimes_append s.past [⟨c, (s.manager.checkChannels c).2⟩] id
  rw [happend, alertTimes_own henabled]
  split <;> rfl

theorem alertTimes_quiet {s : Alerting F} (h : Tracked config s)
    (henabled : config.enabled = true) {c : Check F} (hc : Later s c) {id : UInt32}
    (hquiet : episode config s.past id = [] →
      ∃ last ∈ lastAlert s.past id, c.now < last + config.cooldown) :
    alertTimes (s.check c).past id = alertTimes s.past id := by
  rw [alertTimes_check (h.configured ▸ henabled)]
  apply if_neg
  intro hboth
  obtain ⟨hnew, hdue⟩ := (h.raises hc id).1 (Bool.and_eq_true_iff.1 hboth).2
  obtain ⟨last, hlast, hlt⟩ := hquiet hnew
  exact absurd (hdue last hlast) (Nat.not_le.2 hlt)

theorem lastAlert_ongoing {s : Alerting F} (h : Tracked config s)
    (henabled : config.enabled = true) {c : Check F} (hc : Later s c) {id : UInt32}
    (hsome : episode config s.past id ≠ []) :
    lastAlert (s.check c).past id = lastAlert s.past id := by
  unfold lastAlert
  rw [alertTimes_quiet h henabled hc fun hnil => absurd hnil hsome]

theorem episode_check (s : Alerting F) (c : Check F) (id : UInt32) :
    episode config (s.check c).past id = if c.alerting config id = true then
      ⟨c, (s.manager.checkChannels c).2⟩ :: episode config s.past id else [] :=
  episode_cons _ _ _

theorem alertedIn_check {s : Alerting F} (h : Tracked config s)
    (henabled : config.enabled = true) {c : Check F} (hc : Later s c) {id : UInt32}
    (halert : c.alerting config id = true) : AlertedIn config (s.check c).past id ↔
      (episode config s.past id = [] ∧ ∀ last ∈ lastAlert s.past id,
        last + config.cooldown ≤ c.now) ∨ AlertedIn config s.past id := by
  have hsplit : alertTimes (episode config (s.check c).past id) id =
      alertTimes [⟨c, (s.manager.checkChannels c).2⟩] id ++
        alertTimes (episode config s.past id) id := by
    rw [episode_check, if_pos halert]
    exact alertTimes_append _ [⟨c, (s.manager.checkChannels c).2⟩] id
  unfold AlertedIn
  rw [hsplit, alertTimes_own (h.configured ▸ henabled), h.configured, halert, ← h.raises hc id]
  cases hraises : s.manager.raises c.now id <;> simp

theorem Tracked.step {s : Alerting F} (h : Tracked config s) (henabled : config.enabled = true)
    {c : Check F} (hc : Later s c) : Tracked config (s.check c) := by
  have hchecked := checked s.manager c (h.configured ▸ henabled)
  refine ⟨hchecked.config.trans h.configured, fun id => ?_, fun id => ?_, fun id hsome => ?_,
    fun id => ?_⟩
  · have hactive : ((s.check c).manager.activeAlerts.get id).isSome = c.alerting config id :=
      h.configured ▸ hchecked.active id
    rw [hactive, episode_check]
    cases c.alerting config id <;> simp
  · unfold lastAlert
    rw [alertTimes_check (h.configured ▸ henabled)]
    refine (hchecked.last id).trans ?_
    split
    · rfl
    · exact h.last id
  · have halert : c.alerting config id = true := by
      by_contra hnot
      rw [episode_check, if_neg hnot] at hsome
      exact hsome rfl
    rw [alertedIn_check h henabled hc halert]
    by_cases hnew : episode config s.past id = []
    · rw [Alerting.check, suppressed_begin halert hnew]
      have hnone := not_alertedIn_of_nil hnew
      simp [hnew, hnone]
    · rw [Alerting.check, suppressed_continue halert hnew, ← h.alerted id hnew]
      simp [hnew]
  · rw [alertTimes_check (h.configured ▸ henabled), h.configured]
    split
    · rename_i hboth
      obtain ⟨-, hdue⟩ := (h.raises hc id).1 (Bool.and_eq_true_iff.1 hboth).2
      refine List.pairwise_cons.2 ⟨fun t ht => ?_, h.spaced id⟩
      obtain ⟨last, hlast, hle⟩ := le_lastAlert h.spaced ht
      exact Nat.le_trans (Nat.add_le_add_right hle _) (hdue last hlast)
    · exact h.spaced id

theorem raised_iff {s : Alerting F} (h : Tracked config s) (henabled : config.enabled = true)
    {c : Check F} (hc : Later s c) : Raised config (s.check c).past ↔
      ∀ id, episode config s.past id ≠ [] → c.alerting config id = true →
        Suppressed config s.past id → ∀ last ∈ lastAlert s.past id, c.now < last + config.cooldown := by
  constructor
  · intro hraised id hsome halert hsuppressed last hlast
    by_contra hnot
    have halerted := hraised _ rfl id halert fun t ht => by
      rw [lastAlert_ongoing h henabled hc hsome, hlast] at ht
      cases ht
      exact Nat.not_lt.1 hnot
    rw [alertedIn_check h henabled hc halert] at halerted
    rcases halerted with ⟨hnil, -⟩ | halerted
    · exact hsome hnil
    · exact (h.alerted id hsome).1 halerted hsuppressed
  · intro hcond e he id halert hdue
    cases he
    rw [alertedIn_check h henabled hc halert]
    by_cases hnew : episode config s.past id = []
    · refine .inl ⟨hnew, ?_⟩
      by_contra hnot
      simp only [not_forall, not_le] at hnot
      obtain ⟨last, hlast, hlt⟩ := hnot
      have hsame := alertTimes_quiet h henabled hc fun _ => ⟨last, hlast, hlt⟩
      refine absurd (hdue last ?_) (Nat.not_le.2 hlt)
      unfold lastAlert
      rw [hsame]
      exact hlast
    · refine .inr ?_
      by_contra hnone
      have hsuppressed : Suppressed config s.past id := by
        by_contra hnot
        exact hnone ((h.alerted id hnew).2 hnot)
      have hlast := hsuppressed
      obtain ⟨-, -, last, hlast, -⟩ := hlast
      have hquiet : alertTimes (episode config s.past id) id = [] := not_not.1 hnone
      have hsplit : alertTimes s.past id = alertTimes (episode config s.past id) id ++
          alertTimes (beforeEpisode config s.past id) id := alertTimes_split s.past id
      have hlast' : last ∈ lastAlert s.past id := by
        unfold lastAlert
        rw [hsplit, hquiet]
        exact hlast
      have hlt := hcond id hnew halert hsuppressed last hlast'
      refine absurd (hdue last ?_) (Nat.not_le.2 hlt)
      rw [lastAlert_ongoing h henabled hc hnew]
      exact hlast'

theorem recovered_iff {s : Alerting F} (h : Tracked config s) (henabled : config.enabled = true)
    (c : Check F) : Recovered config (s.check c).past ↔
      ∀ id, episode config s.past id ≠ [] → c.alerting config id = false →
        config.alertOnRecovery = true →
        c.statusOf id = some "Ok" ∧ ¬ Suppressed config s.past id := by
  have hsent : ∀ id, RecoverySent (s.manager.checkChannels c).2 id ↔
      episode config s.past id ≠ [] ∧ c.alerting config id = false ∧
        config.alertOnRecovery = true := by
    intro id
    rw [(checked s.manager c (h.configured ▸ henabled)).recoveries id, h.active, h.configured]
  constructor
  · intro hrecovered id hsome hquiet hflag
    obtain ⟨n, hn, hkind, rfl⟩ := (hsent id).2 ⟨hsome, hquiet, hflag⟩
    obtain ⟨hstatus, halerted⟩ := hrecovered n hn hkind
    exact ⟨hstatus, (h.alerted _ hsome).1 halerted⟩
  · intro hcond n hn hkind
    obtain ⟨hsome, hquiet, hflag⟩ := (hsent n.channel.id).1 ⟨n, hn, hkind, rfl⟩
    obtain ⟨hstatus, hsuppressed⟩ := hcond _ hsome hquiet hflag
    exact ⟨hstatus, (h.alerted _ hsome).2 hsuppressed⟩

theorem settles_iff {s : Alerting F} (h : Tracked config s) (henabled : config.enabled = true)
    {c : Check F} (hc : Later s c) :
    (Raised config (s.check c).past ∧ Recovered config (s.check c).past) ↔ Settles config s c := by
  rw [raised_iff h henabled hc, recovered_iff h henabled c]
  unfold Settles
  constructor
  · intro hboth id hsome
    exact ⟨hboth.1 id hsome, hboth.2 id hsome⟩
  · intro hboth
    exact ⟨fun id hsome => (hboth id hsome).1, fun id hsome => (hboth id hsome).2⟩

/-- Checks at non-decreasing times never see the clock run back. -/
theorem along_later {checks : List (Check F)}
    (hchecks : checks.Pairwise fun c d => c.now ≤ d.now) {s : Alerting F}
    (hs : ∀ c ∈ checks, Later s c) : Runs.Along Alerting.check Later s checks := by
  induction hchecks generalizing s with
  | nil => trivial
  | cons hhead htail ih =>
    rename_i c checks
    refine ⟨hs c List.mem_cons_self, ih fun d hd e he => ?_⟩
    rcases List.mem_cons.1 he with rfl | he
    · exact hhead d hd
    · exact hs d (List.mem_cons_of_mem _ hd) e he

/-- Whatever the snapshots are, two alerts for one channel are the cooldown apart. -/
theorem alerts_spaced (henabled : config.enabled = true) (deviceInfo : String)
    {checks : List (Check F)} (hchecks : checks.Pairwise fun c d => c.now ≤ d.now) :
    ∀ s ∈ Runs.states Alerting.check ⟨AlertManager.new config deviceInfo, []⟩ checks,
      Spaced config s.past := by
  intro s hs
  have hlater : Runs.Along Alerting.check Later ⟨AlertManager.new config deviceInfo, []⟩ checks :=
    along_later hchecks fun _ _ _ he => absurd he List.not_mem_nil
  exact (Runs.states_invariant Alerting.check (fun _ _ ht hc => ht.step henabled hc)
    (tracked_new config deviceInfo) hlater s hs).spaced

/-- Every episode that reaches the end of its cooldown is alerted and every recovery is
    one, exactly in the runs whose checks all settle. -/
theorem alerting_over_runs (config : AlertConfig) (deviceInfo : String)
    (checks : List (Check F)) (henabled : config.enabled = true)
    (hchecks : checks.Pairwise fun c d => c.now ≤ d.now) :
    (∀ s ∈ Runs.states Alerting.check ⟨AlertManager.new config deviceInfo, []⟩ checks,
      Spaced config s.past ∧ Raised config s.past ∧ Recovered config s.past) ↔
    Runs.Along Alerting.check (Settles config) ⟨AlertManager.new config deviceInfo, []⟩ checks := by
  have hstart : Tracked config (⟨AlertManager.new config deviceInfo, []⟩ : Alerting F) ∧
      Raised config ([] : List (Entry F)) ∧ Recovered config ([] : List (Entry F)) :=
    ⟨tracked_new config deviceInfo, nofun, trivial⟩
  have hlater : Runs.Along Alerting.check Later ⟨AlertManager.new config deviceInfo, []⟩ checks :=
    along_later hchecks fun _ _ _ he => absurd he List.not_mem_nil
  refine Runs.states_iff_along_of Alerting.check
    (I := fun s => Tracked config s ∧ Raised config s.past ∧ Recovered config s.past)
    (fun s h => ⟨h.1.spaced, h.2⟩) (fun s c h hc hsettles => ?_) (fun s c h hc hnot hgood => ?_)
    hstart hlater
  · exact ⟨h.1.step henabled hc, (settles_iff h.1 henabled hc).2 hsettles⟩
  · exact hnot ((settles_iff h.1 henabled hc).1 hgood.2)

end Runs

section Zone

def zoneConfig : AlertConfig := { AlertConfig.default with enabled := true }

def zoneCheck (seconds : ℕ) (status : String) : Check ℚ where
  now := seconds * 1000000000
  timestamp := ""
  channels := [⟨1113, "Zone", status, -40⟩]
  send _ _ _ := 0
  twoDecimals _ := ""
  order := .ascending UInt32 (ActiveAlert ℚ)

def zoneRecovers : List (Check ℚ) := [zoneCheck 0 "Fault", zoneCheck 1 "Fault", zoneCheck 2 "Ok"]

def zoneState (n : ℕ) : Alerting ℚ :=
  Runs.run Alerting.check ⟨AlertManager.new zoneConfig "", []⟩ (zoneRecovers.take n)

theorem zone_alone {e : Entry ℚ} {past : List (Entry ℚ)} {seconds : ℕ} {status : String}
    {id : UInt32} (he : e.check = zoneCheck seconds status)
    (hepisode : episode zoneConfig (e :: past) id ≠ []) : id = 1113 := by
  by_contra hid
  apply hepisode
  refine List.takeWhile_cons_of_neg ?_
  rw [he]
  simp [Check.alerting, alertingIn, zoneCheck, Ne.symm hid]

theorem zone_not_suppressed {past : List (Entry ℚ)}
    (h : lastAlert (beforeEpisode zoneConfig past 1113) 1113 = none) :
    ¬ Suppressed zoneConfig past 1113 := by
  rintro ⟨first, -, last, hlast, -⟩
  rw [h] at hlast
  cases hlast

/-- Every state of the run is alerted and recovered as it should be, and its last check mails
    the recovery. -/
theorem zone_recovers :
    (∀ s ∈ Runs.states Alerting.check ⟨AlertManager.new zoneConfig "", []⟩ zoneRecovers,
      Spaced zoneConfig s.past ∧ Raised zoneConfig s.past ∧ Recovered zoneConfig s.past) ∧
    (zoneState 3).past.map (fun e => e.sent.map fun n => (n.alertType, n.channel.id)) =
      [[(.recovery, 1113)], [], [(.fault, 1113)]] := by
  refine ⟨(alerting_over_runs zoneConfig "" zoneRecovers rfl (by decide)).2 ⟨?_, ?_, ?_, trivial⟩,
    by decide +kernel⟩
  · intro id hepisode
    exact absurd rfl hepisode
  · intro id hepisode
    obtain rfl := zone_alone rfl hepisode
    have hquiet : ¬ Suppressed zoneConfig (zoneState 1).past 1113 :=
      zone_not_suppressed (by decide +kernel)
    exact ⟨fun _ h => absurd h hquiet, fun h => absurd h (by decide)⟩
  · intro id hepisode
    obtain rfl := zone_alone rfl hepisode
    have hquiet : ¬ Suppressed zoneConfig (zoneState 2).past 1113 :=
      zone_not_suppressed (by decide +kernel)
    exact ⟨fun h => absurd h (by decide), fun _ _ => ⟨by decide, hquiet⟩⟩

def zoneOutlasts : List (Check ℚ) :=
  [zoneCheck 0 "Fault", zoneCheck 1 "Ok", zoneCheck 2 "Fault", zoneCheck 902 "Fault"]

theorem zone_never_alerted :
    ¬ ∀ (config : AlertConfig) (deviceInfo : String) (checks : List (Check ℚ)),
      config.enabled = true → checks.Pairwise (fun c d => c.now ≤ d.now) →
      ∀ s ∈ Runs.states Alerting.check ⟨AlertManager.new config deviceInfo, []⟩ checks,
        Spaced config s.past ∧ Raised config s.past ∧ Recovered config s.past := by
  intro hall
  obtain ⟨s, hs⟩ : ∃ s, Runs.run Alerting.check
      (⟨AlertManager.new zoneConfig "", []⟩ : Alerting ℚ) zoneOutlasts = s := ⟨_, rfl⟩
  have hraised := (hall zoneConfig "" zoneOutlasts rfl (by decide) s
    (hs ▸ Runs.run_mem_states Alerting.check _ zoneOutlasts)).2.1
  have hlast : lastAlert s.past 1113 = some 0 := by
    rw [← hs]
    decide +kernel
  have hnone : alertTimes (episode zoneConfig s.past 1113) 1113 = [] := by
    rw [← hs]
    decide +kernel
  obtain ⟨e, he, hcheck⟩ : ∃ e ∈ s.past.head?, e.check = zoneCheck 902 "Fault" := by
    rw [← hs]
    exact ⟨_, rfl, rfl⟩
  refine hraised e he 1113 (by rw [hcheck]; decide) (fun t ht => ?_) hnone
  rw [hlast] at ht
  cases ht
  rw [hcheck]
  decide

end Zone

end Sandstar.Alerts
