import Amqp.Connection
import Amqp.Proofs.Connection.Discarding
import Amqp.Proofs.Connection.FrameSizes
import Amqp.Proofs.Connection.Graceful
import Amqp.Proofs.Connection.Grammar
import Amqp.Proofs.Connection.Routing
import Amqp.Proofs.Link.Attachments
import Amqp.Proofs.Link.Credit
import Amqp.Proofs.Link.Outcomes
import Amqp.Proofs.Link.Refilling
import Amqp.Proofs.Link.Settlement
import Amqp.Proofs.Link.SizeLimit
import Amqp.Proofs.Performative.Boundary
import Amqp.Proofs.Session.Delivery
import Amqp.Proofs.Session.FanOut
import Amqp.Proofs.Session.FirstFit
import Amqp.Proofs.Session.LateBegins
import Amqp.Proofs.Session.Parts
import Amqp.Proofs.Session.Refusals
import Amqp.Proofs.Session.Replenishing
import Amqp.Proofs.Session.Window
import Amqp.Proofs.Transport.Attempts
import Amqp.Proofs.Transport.Buffering
import Amqp.Proofs.Transport.Pieces
import Amqp.Proofs.Transport.Refusing
import Amqp.Proofs.Transport.Writing
import Amqp.Proofs.Value.Compactness
import Amqp.Proofs.Value.Expansion
import Amqp.Session.Links
import Amqp.Settings.Reading
