import NetconfServer.Library.Bounded
import NetconfServer.Library.Buckets
import NetconfServer.Library.Decimal
import NetconfServer.Library.Framed
import NetconfServer.Library.Heap
import NetconfServer.Library.Links
import NetconfServer.Library.Machine
import NetconfServer.Library.Markup
import NetconfServer.Library.Pointers
import NetconfServer.Library.Printf
import NetconfServer.Library.Register
import NetconfServer.Library.Rose
import NetconfServer.Library.Search
import NetconfServer.Library.Separation
import NetconfServer.Memory.CString
import NetconfServer.Memory.Exec
import NetconfServer.Memory.Pointer
import NetconfServer.Parsing.Abcc
import NetconfServer.Parsing.Hashmap
import NetconfServer.Parsing.BucketIndex
import NetconfServer.Parsing.LinkedHashmap
import NetconfServer.Parsing.MapHistory
import NetconfServer.Parsing.KeyValuePairArray
import NetconfServer.Parsing.AssociationList
import NetconfServer.Parsing.Libxml2
import NetconfServer.Parsing.Parse
import NetconfServer.Parsing.Request
import NetconfServer.Parsing.Process
import NetconfServer.Parsing.Fields
import NetconfServer.Parsing.Refusals
import NetconfServer.Parsing.Allocation
import NetconfServer.Parsing.Nulls
import NetconfServer.Parsing.Entities
import NetconfServer.Parsing.Serialiser
import NetconfServer.Parsing.StoredArray
import NetconfServer.Parsing.StoredRequest
import NetconfServer.Networking.Replies
import NetconfServer.Networking.Server
import NetconfServer.Networking.Move
import NetconfServer.Networking.History
import NetconfServer.Networking.Requests
import NetconfServer.Networking.Device
import NetconfServer.Networking.Availability
import NetconfServer.Networking.Content
import NetconfServer.Networking.Correlation
import NetconfServer.Networking.Delimiter
import NetconfServer.Networking.Delivery
import NetconfServer.Networking.Fitting
import NetconfServer.Networking.Framing
import NetconfServer.Networking.Literal
import NetconfServer.Networking.Edits
import NetconfServer.Networking.ReadBack
import NetconfServer.Networking.StoredServer
import NetconfServer.Networking.Sessions
import NetconfServer.Networking.Survival
import NetconfServer.Networking.Faults
import NetconfServer.Networking.Shortage
import NetconfServer.Networking.Process
import NetconfServer.Networking.Contexts
import NetconfServer.Networking.Conversations
import NetconfServer.Networking.Endings
