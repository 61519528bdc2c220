import WpaCtrl.Text
import WpaCtrl.Utf8
import WpaCtrl.Integer
import WpaCtrl.Dict
import WpaCtrl.Hex
import WpaCtrl.Ssid
import WpaCtrl.Dialect
import WpaCtrl.Spellings
import WpaCtrl.Grammar
import WpaCtrl.Passphrases
import WpaCtrl.Replies
import WpaCtrl.Tables
import WpaCtrl.Rows
import WpaCtrl.Events
import WpaCtrl.Dpp
import WpaCtrl.Params
import WpaCtrl.Channels
import WpaCtrl.Security
import WpaCtrl.Offers
import WpaCtrl.Runs
import WpaCtrl.Client
import WpaCtrl.Transport
import WpaCtrl.EventStream
import WpaCtrl.Deadline
import WpaCtrl.Drain
import WpaCtrl.RequestReply
import WpaCtrl.Compat
import WpaCtrl.Discovery
import WpaCtrl.Cursor
import WpaCtrl.Walks
import WpaCtrl.Paging
import WpaCtrl.NetworkPages
import WpaCtrl.Polling
import WpaCtrl.Guards
import WpaCtrl.Masks
import WpaCtrl.Decoding
import WpaCtrl.Commands
import WpaCtrl.Configuration
import WpaCtrl.Views
import WpaCtrl.Clients
import WpaCtrl.Sessions
import WpaCtrl.Conversations
import WpaCtrl.Subscriptions
import WpaCtrl.Fetches
import WpaCtrl.Interfaces
import WpaCtrl.Postures
