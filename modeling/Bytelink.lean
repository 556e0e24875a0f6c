import Bytelink.Build.Pipeline
import Bytelink.CommandLine.Session
import Bytelink.Data.Sink
import Bytelink.Host.Workspace
import Bytelink.Main
import Bytelink.Proofs.Grammar
import Bytelink.Proofs.Layout
import Bytelink.Proofs.Scan
import Bytelink.Proofs.LineWise
import Bytelink.Proofs.Linking
import Bytelink.Proofs.Instruction
import Bytelink.Proofs.Resubstitution
import Bytelink.Proofs.Names
import Bytelink.Proofs.Dialogue
import Bytelink.Proofs.Encoding
import Bytelink.Proofs.Printing
import Bytelink.Proofs.FileNames
import Bytelink.Proofs.Workshop
import Bytelink.Proofs.ToolRuns
import Bytelink.Proofs.Preparing
import Bytelink.Proofs.Compiling
import Bytelink.Proofs.Moves
import Bytelink.Proofs.Preprocessing
import Bytelink.Proofs.Building
import Bytelink.Proofs.Bench
import Bytelink.Proofs.Rehearsal
import Bytelink.Proofs.ClassFile
import Bytelink.Proofs.Listings
import Bytelink.Proofs.Intermediates
import Bytelink.Proofs.Naming
import Bytelink.Proofs.Deeds
import Bytelink.Proofs.Steps
import Bytelink.Proofs.Parts
import Bytelink.Proofs.Staging
import Bytelink.Proofs.FailFast
import Bytelink.Proofs.Remits
import Bytelink.Proofs.Cancellation
import Bytelink.Proofs.Twins
import Bytelink.Proofs.Premises
import Bytelink.Proofs.Agreement
import Bytelink.Proofs.Shelf
import Bytelink.Proofs.Leftovers
import Bytelink.Proofs.Composition
import Bytelink.Proofs.Spelling
import Bytelink.Proofs.Replacement
import Bytelink.Proofs.Delivery
import Bytelink.Proofs.Cutting
import Bytelink.Proofs.Growth
import Bytelink.Proofs.Shares
import Bytelink.Proofs.Targets
import Bytelink.Proofs.Groups
import Bytelink.Proofs.Arguments
import Bytelink.Proofs.Attendance
import Bytelink.Proofs.Waiting
import Bytelink.Proofs.Seams
import Bytelink.Proofs.Dispatch
import Bytelink.Proofs.Families
import Bytelink.Proofs.Discovery
import Bytelink.Proofs.Changes
import Bytelink.Proofs.Heeding
import Bytelink.Proofs.MachineBuild
import Bytelink.Proofs.Expressions
import Bytelink.Proofs.Wildcards
import Bytelink.Proofs.Calculation
import Bytelink.Proofs.Fields
import Bytelink.Proofs.SortedLines
import Bytelink.Proofs.Streams
