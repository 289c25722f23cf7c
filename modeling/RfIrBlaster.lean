import RfIrBlaster.StateMachine
import RfIrBlaster.ConfigValidate
import RfIrBlaster.CharRegex
import RfIrBlaster.HostPattern
import RfIrBlaster.Ipv4Text
import RfIrBlaster.CanonicalDomain
import RfIrBlaster.LearnMachine
import RfIrBlaster.PairedTables
import RfIrBlaster.LearnLedger
import RfIrBlaster.LearnSoundness
import RfIrBlaster.LearnStorable
import RfIrBlaster.LearnAmbient
import RfIrBlaster.LearnClusters
import RfIrBlaster.LearnEstablished
import RfIrBlaster.LearnRolling
import RfIrBlaster.LearnTracks
import RfIrBlaster.BoundedAccess
import RfIrBlaster.LearnBounds
import RfIrBlaster.DeclipRecovery
import RfIrBlaster.DeclipShape
import RfIrBlaster.Json
import RfIrBlaster.JsonText
import RfIrBlaster.ConfigJson
import RfIrBlaster.ConfigCodec
import RfIrBlaster.DecodeSafety
import RfIrBlaster.ShiftRegister
import RfIrBlaster.BlobCorruption
import RfIrBlaster.AlternatingList
import RfIrBlaster.CaptureBursts
import RfIrBlaster.ConfigApi
import RfIrBlaster.SchemaVersion
import RfIrBlaster.DeviceIds
import RfIrBlaster.ConfigClients
import RfIrBlaster.PendingAction
import RfIrBlaster.LearnApi
import RfIrBlaster.LearnWindow
import RfIrBlaster.LearnRadios
import RfIrBlaster.WebLearn
import RfIrBlaster.BrowserValues
import RfIrBlaster.ImportCheck
import RfIrBlaster.ImportRestore
import RfIrBlaster.BrowserText
import RfIrBlaster.PageDocuments
import RfIrBlaster.PageEdits
import RfIrBlaster.PageEditRuns
import RfIrBlaster.RejectedWrites
import RfIrBlaster.SlotTable
import RfIrBlaster.LoginThrottle
import RfIrBlaster.LoginLockout
import RfIrBlaster.LoginEviction
import RfIrBlaster.Encoding
import RfIrBlaster.Base64url
import RfIrBlaster.SessionToken
import RfIrBlaster.PasswordRecord
import RfIrBlaster.TokenKinds
import RfIrBlaster.TokenNumbers
import RfIrBlaster.RequestPolicy
import RfIrBlaster.ClientKey
import RfIrBlaster.HostAuthority
import RfIrBlaster.WebListeners
import RfIrBlaster.KeyedList
import RfIrBlaster.AccessoryPlan
import RfIrBlaster.PlanScript
import RfIrBlaster.PendingSends
import RfIrBlaster.SendTimeline
import RfIrBlaster.RepeatedSends
import RfIrBlaster.ConfigMutate
import RfIrBlaster.AccessoryBuilder
import RfIrBlaster.RepeatedList
import RfIrBlaster.RmtPulse
import RfIrBlaster.FireCode
import RfIrBlaster.CallProgram
import RfIrBlaster.RadioHardware
import RfIrBlaster.RadioRuns
import RfIrBlaster.LearnReplay
import RfIrBlaster.HomeControl
import RfIrBlaster.HomeCommands
import RfIrBlaster.DeviceRuns
import RfIrBlaster.BootRecovery
import RfIrBlaster.Onboarding
import RfIrBlaster.OnboardingAnswers
import RfIrBlaster.FormFields
import RfIrBlaster.RequestBody
import RfIrBlaster.FlashLog
import RfIrBlaster.AuthStore
import RfIrBlaster.WebAuth
import RfIrBlaster.AuthRuns
import RfIrBlaster.AuthSessions
import RfIrBlaster.BrowserCookies
import RfIrBlaster.BrowserSessions
import RfIrBlaster.PasswordGuesses
import RfIrBlaster.WebPages
import RfIrBlaster.FirstSeen
import RfIrBlaster.NetworkScan
import RfIrBlaster.LearnDialogRuns
import RfIrBlaster.CertStore
import RfIrBlaster.OtaPassword
import RfIrBlaster.StatusLed
