import Zimr.Spec.Net
import Zimr.Lib.Links
import Zimr.Lib.Blocks
import Zimr.Spec.Md5
import Zimr.Lib.Walk
import Zimr.Lib.Table
import Zimr.Proof.Acks
import Zimr.Proof.Faults
import Zimr.Proof.Pending
import Zimr.Proof.Received
import Zimr.Proof.Quiet
import Zimr.Proof.NeedSelect
import Zimr.Proof.Registered
import Zimr.Proof.Wire
import Zimr.Proof.DeadLink
import Zimr.Proof.Framing
import Zimr.Proof.Path
import Zimr.Proof.Connection
import Zimr.Proof.Serving
import Zimr.Proof.Revalidate
import Zimr.Proof.Sorting
import Zimr.Proof.Params
import Zimr.Proof.Transfer
import Zimr.Proof.Bytes
import Zimr.Proof.WriteError
import Zimr.Proof.Base64
import Zimr.Proof.Auth
import Zimr.Spec.State
import Zimr.Proof.Pressure
import Zimr.Proof.State
import Zimr.Proof.Listeners
import Zimr.Proof.Listened
import Zimr.Proof.Select
import Zimr.Proof.Search
import Zimr.Proof.Urls
import Zimr.Proof.Ordered
import Zimr.Proof.Lookup
import Zimr.Proof.Handler
import Zimr.Proof.Range
import Zimr.Proof.Query
import Zimr.Proof.Headers
import Zimr.Proof.HeaderMap
import Zimr.Proof.HeaderBytes
import Zimr.Proof.Sent
import Zimr.Proof.Attrs
import Zimr.Proof.Exhausted
import Zimr.Proof.Cookies
import Zimr.Proof.CookieText
import Zimr.Proof.Forms
import Zimr.Proof.Webapps
