import MessageHooks.Json.Reader
import MessageHooks.Proofs.AfterHook
import MessageHooks.Proofs.AfterMode
import MessageHooks.Proofs.Bindings
import MessageHooks.Proofs.Boot
import MessageHooks.Proofs.Config.Strict
import MessageHooks.Proofs.Counter
import MessageHooks.Proofs.Histogram
import MessageHooks.Proofs.Identity
import MessageHooks.Proofs.Independence
import MessageHooks.Proofs.Journal
import MessageHooks.Proofs.Kinds
import MessageHooks.Proofs.Lifecycle
import MessageHooks.Proofs.Message.Bytes
import MessageHooks.Proofs.Message.Canonical
import MessageHooks.Proofs.Message.NullElements
import MessageHooks.Proofs.Message.PayloadFault
import MessageHooks.Proofs.Observer
import MessageHooks.Proofs.Samples
import MessageHooks.Script
