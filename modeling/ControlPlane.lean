import ControlPlane.Proof.FirstMeasure
import ControlPlane.Proof.Unparkable
import ControlPlane.Proof.CrashSafe
import ControlPlane.Proof.Delivery
import ControlPlane.Proof.Reports
import ControlPlane.Proof.Residency
import ControlPlane.Proof.Capacity
import ControlPlane.Proof.Area
import ControlPlane.Proof.Approvals
import ControlPlane.Proof.Deploys
import ControlPlane.Proof.Auth
import ControlPlane.Proof.Retry
import ControlPlane.Proof.Notifier
import ControlPlane.Proof.Straggler
import ControlPlane.Proof.Restart
import ControlPlane.Proof.ChatStream
import ControlPlane.Proof.Lease
import ControlPlane.Proof.Intents
import ControlPlane.Proof.Observation
import ControlPlane.Proof.Outreach
import ControlPlane.Proof.Framing
import ControlPlane.Proof.Surface
import ControlPlane.Proof.Cache
import ControlPlane.Proof.AgentViews
import ControlPlane.Proof.Timestamps
import ControlPlane.Automation
import ControlPlane.Proof.Automation
import ControlPlane.Proof.Convergence
import ControlPlane.Browser
import ControlPlane.Proof.Polling
import ControlPlane.Proof.Addresses
import ControlPlane.FanCsv
import ControlPlane.Proof.FanCsv
import ControlPlane.Proof.History
