import LocateAnything.Boot.Promises
import LocateAnything.Bridge.Answerable
import LocateAnything.Bridge.Contract
import LocateAnything.Bridge.Drift
import LocateAnything.Bridge.Egress
import LocateAnything.Bridge.Geometry
import LocateAnything.Bridge.Presets
import LocateAnything.Bridge.Prompt
import LocateAnything.Client.Capture
import LocateAnything.Client.Message
import LocateAnything.Client.Receiver
import LocateAnything.Client.Reconnect
import LocateAnything.Client.Session
import LocateAnything.Edge.Acceptance
import LocateAnything.Edge.FillBytes
import LocateAnything.Edge.Panics
import LocateAnything.Edge.PromptNfc
import LocateAnything.Stream.Correlation
import LocateAnything.Stream.Idle
import LocateAnything.Stream.SelfExit
import LocateAnything.Stream.Shutdown
import LocateAnything.Worker.ErrorCodes
import LocateAnything.Worker.Grid
import LocateAnything.Worker.Groups
import LocateAnything.Worker.HandleConnection
import LocateAnything.Worker.InferenceLock
import LocateAnything.Worker.Nms
import LocateAnything.Worker.ResizePlan
