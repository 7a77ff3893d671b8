import ModNdb.Lib.Prog
import ModNdb.Lib.Retries
import ModNdb.Text
import ModNdb.Format.Scan
import ModNdb.Format.Compile
import ModNdb.Format.Tokens
import ModNdb.Format.ParserSpec
import ModNdb.Format.TokenParse
import ModNdb.Format.Spelling
import ModNdb.MySQL.Result
import ModNdb.Format.Output
import ModNdb.Format.Container
import ModNdb.Format.Sharing
import ModNdb.Format.Reads
import ModNdb.Format.Runs
import ModNdb.Lib.Json
import ModNdb.Format.JsonValue
import ModNdb.Format.Printed
import ModNdb.Format.JsonPage
import ModNdb.Format.Rendered
import ModNdb.Format.Scanning
import ModNdb.Format.ScanPage
import ModNdb.Format.Buffer
import ModNdb.Format.Written
import ModNdb.Format.PageWrites
import ModNdb.JSON.Unescape
import ModNdb.JSON.Escapes
import ModNdb.JSON.Scanner
import ModNdb.JSON.Parser
import ModNdb.JSON.Document
import ModNdb.JSON.Acceptance
import ModNdb.JSON.Lexemes
import ModNdb.JSON.Surrogates
import ModNdb.JSON.InPlace
import ModNdb.JSON.Decoding
import ModNdb.JSON.Members
import ModNdb.JSON.Texts
import ModNdb.JSON.Completion
import ModNdb.Query.Form
import ModNdb.JSON.Actions
import ModNdb.Config.Dir
import ModNdb.Config.Directives
import ModNdb.Config.Columns
import ModNdb.Config.Links
import ModNdb.Config.Chains
import ModNdb.Config.Giving
import ModNdb.Config.Requests
import ModNdb.Config.Sound
import ModNdb.Config.Select
import ModNdb.Config.Settings
import ModNdb.Config.Merge
import ModNdb.Config.Reached
import ModNdb.MySQL.Strtol
import ModNdb.MySQL.Value
import ModNdb.MySQL.Usable
import ModNdb.MySQL.Strings
import ModNdb.MySQL.Numbers
import ModNdb.MySQL.Integers
import ModNdb.MySQL.Numerals
import ModNdb.MySQL.Moments
import ModNdb.MySQL.Binary
import ModNdb.Ndb.Api
import ModNdb.Query.Body
import ModNdb.Query.Readers
import ModNdb.Query.FormData
import ModNdb.Query.Plan
import ModNdb.Query.Given
import ModNdb.Query.Instance
import ModNdb.Query.Execute
import ModNdb.Query.Query
import ModNdb.Query.Run
import ModNdb.Query.Frame
import ModNdb.Query.Settled
import ModNdb.Query.Walk
import ModNdb.Query.KeyParts
import ModNdb.Query.Parts
import ModNdb.Query.Batch
import ModNdb.Query.Notes
import ModNdb.Query.Methods
import ModNdb.Query.Filters
import ModNdb.Query.Decided
import ModNdb.Query.Twice
import ModNdb.Query.TwiceRun
import ModNdb.Query.Permuted
import ModNdb.Query.PathScan
import ModNdb.Query.Asked
import ModNdb.Query.Written
import ModNdb.Query.Statuses
import ModNdb.Query.Assigned
import ModNdb.Query.Encoded
import ModNdb.Query.Retry
import ModNdb.Query.Sleeps
import ModNdb.Query.Results
import ModNdb.Format.Classified
import ModNdb.Format.Stalls
import ModNdb.Format.Registry
import ModNdb.Config.SqlBuffer
import ModNdb.Format.Room
import ModNdb.Format.RoundTrip
import ModNdb.Query.Marked
import ModNdb.MySQL.EscapeTables
import ModNdb.Config.Inserted
import ModNdb.Query.Search
import ModNdb.Query.Courses
import ModNdb.Query.Transactions
import ModNdb.Query.Owned
import ModNdb.Query.Mirrored
import ModNdb.Query.Parameters
import ModNdb.NSql.Texts
import ModNdb.Process.Restart
import ModNdb.Process.Apart
import ModNdb.Query.PostBack
import ModNdb.MySQL.Restored
import ModNdb.Query.WrittenBack
import ModNdb.Lib.Triple
import ModNdb.Query.Script
import ModNdb.Query.Stages
import ModNdb.Query.Issued
