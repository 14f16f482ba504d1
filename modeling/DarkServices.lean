import DarkServices.Audit.Atomicity
import DarkServices.Audit.ConcurrentIsolation
import DarkServices.Audit.ContextTheorems
import DarkServices.Audit.Isolation
import DarkServices.Audit.PoolTermination
import DarkServices.Audit.RecordTheorems
import DarkServices.Audit.WormTheorems
import DarkServices.Dashboard.BenchmarkTheorems
import DarkServices.Dashboard.DeletionTheorems
import DarkServices.Dashboard.VerifyChainTheorems
import DarkServices.Gateway.HtuTheorems
import DarkServices.Gateway.JwksCacheTheorems
import DarkServices.Gateway.ReplayTheorems
import DarkServices.Gateway.SharedKeys
import DarkServices.Gateway.TransferTheorems
import DarkServices.Idp.AuthorizeTheorems
import DarkServices.Idp.HandlerTheorems
import DarkServices.Idp.StoreTheorems
import DarkServices.System.BankTheorems
import DarkServices.System.ClientTheorems
import DarkServices.System.CredentialTheorems
import DarkServices.System.DeviceKeyTheorems
import DarkServices.System.JwksTheorems
import DarkServices.System.MetricsTheorems
import DarkServices.System.ProtocolTheorems
import DarkServices.System.ReplayLogTheorems
import DarkServices.System.SharedMetrics
import DarkServices.System.VerifierTheorems
import DarkServices.Client.Program
import DarkServices.Idp.CodeTheorems
import DarkServices.System.PresentedIds
import DarkServices.System.Session
import DarkServices.System.PartyTheorems
import DarkServices.System.SessionTheorems
