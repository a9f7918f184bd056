import Sandstar.FloatOps
import Sandstar.Table

set_option autoImplicit false

/-!
# The alert manager

`check_channels` compares each poll's channel snapshot with two maps: the channels
that are alerting now, and the last alert sent for each channel. The clock, the
answers of the mail sender, the layout of two decimals and the order in which a
hash map yields its keys come with each check.
-/
namespace Sandstar.Alerts

structure AlertConfig where
  enabled : Bool
  smtpHost : String
  smtpPort : UInt16
  smtpUser : String
  smtpPassword : String
  fromAddress : String
  recipients : List String
  cooldownMinutes : UInt64
  alertOnFault : Bool
  alertOnDown : Bool
  alertOnRecovery : Bool
  subjectPrefix : String
deriving DecidableEq, Repr

def AlertConfig.default : AlertConfig where
  enabled := false
  smtpHost := "smtp.gmail.com"
  smtpPort := 587
  smtpUser := ""
  smtpPassword := ""
  fromAddress := ""
  recipients := []
  cooldownMinutes := 15
  alertOnFault := true
  alertOnDown := true
  alertOnRecovery := true
  subjectPrefix := "[Sandstar Alert]"

/-- `Duration::from_secs(cooldown_minutes * 60)`, the product in 64 bits. -/
def AlertConfig.cooldown (config : AlertConfig) : ℕ :=
  (config.cooldownMinutes * 60).toNat * 1000000000

inductive AlertType
  | fault
  | down
  | recovery
deriving DecidableEq, Repr

def AlertType.asStr : AlertType → String
  | .fault => "FAULT"
  | .down => "DOWN"
  | .recovery => "RECOVERED"

variable {F : Type}

structure ChannelSnapshot (F : Type) where
  id : UInt32
  name : String
  status : String
  cur : F

structure ActiveAlert (F : Type) where
  channelId : UInt32
  channelName : String
  status : String
  value : F
  since : Instant

structure AlertHistoryEntry (F : Type) where
  timestamp : String
  channelId : UInt32
  channelName : String
  alertType : AlertType
  status : String
  value : F
  recipientsNotified : ℕ

def maxHistory : ℕ := 100

structure AlertManager (F : Type) where
  config : AlertConfig
  activeAlerts : Table UInt32 (ActiveAlert F)
  lastAlertTime : Table UInt32 Instant
  history : List (AlertHistoryEntry F)
  deviceInfo : String

def AlertManager.new (config : AlertConfig) (deviceInfo : String) : AlertManager F :=
  ⟨config, Table.empty, Table.empty, [], deviceInfo⟩

structure Notice (F : Type) where
  alertType : AlertType
  channel : ChannelSnapshot F
  subject : String
  body : String

/-- One call of `check_channels`. -/
structure Check (F : Type) where
  now : Instant
  timestamp : String
  channels : List (ChannelSnapshot F)
  send : AlertConfig → String → String → ℕ
  /-- The format `{:.2}`. -/
  twoDecimals : F → String
  order : Table.KeyOrder UInt32 (ActiveAlert F)

def AlertConfig.isAlertStatus (config : AlertConfig) (status : String) : Bool :=
  (status == "Fault" && config.alertOnFault) || (status == "Down" && config.alertOnDown)

def AlertManager.pushHistory (m : AlertManager F) (entry : AlertHistoryEntry F) :
    AlertManager F :=
  { m with
    history := (if m.history.length ≥ maxHistory then m.history.drop 1 else m.history) ++ [entry] }

def AlertManager.body (m : AlertManager F) (title note closing : String) (c : Check F)
    (ch : ChannelSnapshot F) : String :=
  title ++ "\n\n" ++
  "Status:    " ++ ch.status ++ note ++ "\n" ++
  "Channel:   " ++ toString ch.id ++ " — " ++ ch.name ++ "\n" ++
  "Value:     " ++ c.twoDecimals ch.cur ++ "\n" ++
  "Time:      " ++ c.timestamp ++ "\n" ++
  "Device:    " ++ m.deviceInfo ++ "\n\n" ++
  closing ++ "\n" ++
  "To manage recipients, use the API: GET /api/alerts/recipients\n"

def AlertManager.dispatchAlert (m : AlertManager F) (alertType : AlertType)
    (ch : ChannelSnapshot F) (c : Check F) : Notice F where
  alertType := alertType
  channel := ch
  subject := m.config.subjectPrefix ++ " " ++ alertType.asStr ++ ": Channel " ++
    toString ch.id ++ " (" ++ ch.name ++ ")"
  body := m.body "SANDSTAR ENGINE ALERT" "" "This alert was generated automatically." c ch

def AlertManager.dispatchRecovery (m : AlertManager F) (ch : ChannelSnapshot F) (c : Check F) :
    Notice F where
  alertType := .recovery
  channel := ch
  subject := m.config.subjectPrefix ++ " RECOVERED: Channel " ++ toString ch.id ++ " (" ++
    ch.name ++ ")"
  body := m.body "SANDSTAR ENGINE ALERT — RECOVERY" " (was alerting)"
    "Channel has returned to normal operation." c ch

def Check.notified (c : Check F) (m : AlertManager F) (n : Notice F) : ℕ :=
  c.send m.config n.subject n.body

def Check.historyEntry (c : Check F) (m : AlertManager F) (n : Notice F) : AlertHistoryEntry F where
  timestamp := c.timestamp
  channelId := n.channel.id
  channelName := n.channel.name
  alertType := n.alertType
  status := n.channel.status
  value := n.channel.cur
  recipientsNotified := c.notified m n

/-- What the loops of `check_channels` carry: the mails sent so far, oldest first. -/
structure Scan (F : Type) where
  manager : AlertManager F
  stillAlerting : List UInt32
  sent : List (Notice F)

def AlertManager.activate (m : AlertManager F) (ch : ChannelSnapshot F) (now : Instant) :
    AlertManager F :=
  { m with activeAlerts := m.activeAlerts.insert ch.id ⟨ch.id, ch.name, ch.status, ch.cur, now⟩ }

def AlertManager.withinCooldown (m : AlertManager F) (id : UInt32) (now : Instant) : Bool :=
  match m.lastAlertTime.get id with
  | some last => decide (now - last < m.config.cooldown)
  | none => false

def Check.scan (c : Check F) (s : Scan F) (ch : ChannelSnapshot F) : Scan F :=
  let m := s.manager
  if m.config.isAlertStatus ch.status then
    let still := s.stillAlerting ++ [ch.id]
    match m.activeAlerts.get ch.id with
    | some _ => ⟨m, still, s.sent⟩
    | none =>
      if m.withinCooldown ch.id c.now then ⟨m.activate ch c.now, still, s.sent⟩
      else
        let alertType := if ch.status == "Fault" then AlertType.fault else .down
        let n := m.dispatchAlert alertType ch c
        let m' := m.activate ch c.now
        ⟨AlertManager.pushHistory
          { m' with lastAlertTime := m'.lastAlertTime.insert ch.id c.now } (c.historyEntry m n),
          still, s.sent ++ [n]⟩
  else s

variable [FloatOps F]

def Check.recover (c : Check F) (s : Scan F) (id : UInt32) : Scan F :=
  match s.manager.activeAlerts.get id with
  | none => s
  | some alert =>
    let m := { s.manager with activeAlerts := s.manager.activeAlerts.erase id }
    if m.config.alertOnRecovery then
      let (curVal, curStatus) := match c.channels.find? (fun ch => ch.id == id) with
        | some ch => (ch.cur, ch.status)
        | none => (FloatOps.lit 0, "Ok")
      let n := m.dispatchRecovery ⟨id, alert.channelName, curStatus, curVal⟩ c
      ⟨m.pushHistory (c.historyEntry m n), s.stillAlerting, s.sent ++ [n]⟩
    else ⟨m, s.stillAlerting, s.sent⟩

def AlertManager.checkChannels (m : AlertManager F) (c : Check F) :
    AlertManager F × List (Notice F) :=
  if !m.config.enabled then (m, [])
  else
    let scanned := c.channels.foldl c.scan ⟨m, [], []⟩
    let recovered := (c.order.walk scanned.manager.activeAlerts).filter
      fun id => !scanned.stillAlerting.contains id
    let done := recovered.foldl c.recover scanned
    (done.manager, done.sent)

end Sandstar.Alerts
