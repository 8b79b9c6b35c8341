import SimpleSnmpd.Routines
import SimpleSnmpd.BerEncodings
import SimpleSnmpd.WriteLogs
import SimpleSnmpd.Simulations
import SimpleSnmpd.Descriptors
import SimpleSnmpd.OrderedStores
import SimpleSnmpd.Registers
import SimpleSnmpd.PacketModel
import SimpleSnmpd.PacketParser
import SimpleSnmpd.MessageGrammar
import SimpleSnmpd.FieldPositions
import SimpleSnmpd.ParserSpecs
import SimpleSnmpd.MessageSpecs
import SimpleSnmpd.SectionLaws
import SimpleSnmpd.ParserLaws
import SimpleSnmpd.PacketReuse
import SimpleSnmpd.SerializerLaws
import SimpleSnmpd.NarrowSizes
import SimpleSnmpd.AgentModel
import SimpleSnmpd.AgentSpecs
import SimpleSnmpd.DatagramLaws
import SimpleSnmpd.ManagerLaws
import SimpleSnmpd.SetLaws
import SimpleSnmpd.WriteIntegrity
import SimpleSnmpd.ReadAccess
import SimpleSnmpd.Relays
import SimpleSnmpd.AnswerSizes
import SimpleSnmpd.ReplyChains
import SimpleSnmpd.ReplyDiscipline
import SimpleSnmpd.ErrorReports
import SimpleSnmpd.ReadMaps
import SimpleSnmpd.ReadBack
import SimpleSnmpd.MibWalks
import SimpleSnmpd.RequestIds
import SimpleSnmpd.NumericValues
import SimpleSnmpd.Texts
import SimpleSnmpd.ConfigModel
import SimpleSnmpd.ConfigSpecs
import SimpleSnmpd.ConfigLaws
import SimpleSnmpd.ConfigFiles
import SimpleSnmpd.ServerModel
import SimpleSnmpd.CommunityChecks
import SimpleSnmpd.ServerLifecycle
import SimpleSnmpd.LoggerModel
import SimpleSnmpd.LoggerLaws
import SimpleSnmpd.ErrorHandler
import SimpleSnmpd.MainModel
import SimpleSnmpd.MainLaws
import SimpleSnmpd.ConnectionModel
import SimpleSnmpd.ConnectionLaws
import SimpleSnmpd.ReportingRoutines
import SimpleSnmpd.ParseReports
import SimpleSnmpd.ServerLogs
import SimpleSnmpd.AuditLaws
import SimpleSnmpd.LogLines
import SimpleSnmpd.ConfigReports
import SimpleSnmpd.WireLaws
import SimpleSnmpd.ClientIsolation
import SimpleSnmpd.ObjectLaws
import SimpleSnmpd.TrafficLaws
import SimpleSnmpd.WalkRuns
import SimpleSnmpd.DeliveryLaws
