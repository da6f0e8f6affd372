import WslVault.AuditService.Verify.Breaks
import WslVault.AuditService.Verify.RoundTrip
import WslVault.Cluster.Verify.Leader
import WslVault.Connectors.Verify.Identifiers
import WslVault.CryptoService.Verify.Isolation
import WslVault.CryptoService.Verify.Reload
import WslVault.CryptoService.Verify.Startup
import WslVault.CryptoService.Verify.Usage
import WslVault.Gateway.Verify.QuotaCheck
import WslVault.IdentityService.Verify.AwsIam
import WslVault.IdentityService.Verify.Base32
import WslVault.IdentityService.Verify.Escalation
import WslVault.IdentityService.Verify.Ldap
import WslVault.IdentityService.Verify.Minted
import WslVault.IdentityService.Verify.Redemption
import WslVault.IdentityService.Verify.RevokedKeys
import WslVault.IdentityService.Verify.Rotation
import WslVault.IdentityService.Verify.SecondFactor
import WslVault.IdentityService.Verify.SigningKeys
import WslVault.IdentityService.Verify.TotpReplay
import WslVault.K8sOperator.Verify.Finalizers
import WslVault.K8sOperator.Verify.Tokens
import WslVault.LeaseManager.Verify.Expiry
import WslVault.LeaseManager.Verify.Lifetime
import WslVault.LeaseManager.Verify.Recurrence
import WslVault.LeaseManager.Verify.TokenLeases
import WslVault.PolicyEngine.Verify.Isolation
import WslVault.ReplicationAgent.Verify.Conflict
import WslVault.ReplicationAgent.Verify.Deletions
import WslVault.ReplicationAgent.Verify.KeyRestrictions
import WslVault.ReplicationAgent.Verify.Outbox
import WslVault.SecretEngine.Verify.Agreement
import WslVault.SecretEngine.Verify.Confirm
import WslVault.SecretEngine.Verify.Environments
import WslVault.SecretEngine.Verify.Quota
import WslVault.Storage.Verify.SecretCount
import WslVault.TransitEngine.Verify.Aad
