import PbxAgent.Main
import PbxAgent.Proofs.Agent.Atomicity
import PbxAgent.Proofs.Agent.Challenge
import PbxAgent.Proofs.Agent.Credentials
import PbxAgent.Proofs.Agent.Noninterference
import PbxAgent.Proofs.Agent.Progress
import PbxAgent.Proofs.Agent.Replies
import PbxAgent.Proofs.Agent.Secrecy
import PbxAgent.Proofs.Http.Framing
import PbxAgent.Proofs.Http.Reply
import PbxAgent.Proofs.Tunnel.Delivery
import PbxAgent.Proofs.Uplink.Chronicle
import PbxAgent.Proofs.Uplink.Renewal
import PbxAgent.Transport.Dial
import PbxAgent.Proofs.Http.Forwarding
import PbxAgent.Proofs.Json.Unique
import PbxAgent.Proofs.Vault.AllOrNothing
import PbxAgent.Proofs.Vault.Crash
import PbxAgent.Proofs.Http.Trailing
import PbxAgent.Proofs.Agent.Rotation
import PbxAgent.Proofs.Http.Buffer
import PbxAgent.Proofs.Config.Precedence
import PbxAgent.Proofs.Tunnel.Pieces
import PbxAgent.Proofs.Identity.Presentation
