import TypeInventory.Bytes.Compressed
import TypeInventory.Bytes.Cursor
import TypeInventory.Command
import TypeInventory.Command.Arguments
import TypeInventory.Command.Summary
import TypeInventory.Descriptor
import TypeInventory.Descriptor.Text
import TypeInventory.Diagnostic
import TypeInventory.Dump
import TypeInventory.Fault
import TypeInventory.File.Path
import TypeInventory.File.Tree
import TypeInventory.Host
import TypeInventory.Host.Session
import TypeInventory.Image
import TypeInventory.Image.BuildRecord
import TypeInventory.Image.Debugging
import TypeInventory.Image.Directories
import TypeInventory.Image.Headers
import TypeInventory.Image.Imports
import TypeInventory.Image.Loaded
import TypeInventory.Image.Resources
import TypeInventory.Image.Section
import TypeInventory.Image.SectionName
import TypeInventory.Main
import TypeInventory.Metadata.CodedIndex
import TypeInventory.Metadata.Heap
import TypeInventory.Metadata.Layout
import TypeInventory.Metadata.Root
import TypeInventory.Metadata.Row
import TypeInventory.Metadata.Table
import TypeInventory.Metadata.Tables
import TypeInventory.Module.Finding
import TypeInventory.Module.Index
import TypeInventory.Module.Loading
import TypeInventory.Module.Members
import TypeInventory.Module.Names
import TypeInventory.Module.Resolution
import TypeInventory.Module.Tables
import TypeInventory.Output.FileName
import TypeInventory.Output.Writer
import TypeInventory.Page
import TypeInventory.Selection
import TypeInventory.Signature
import TypeInventory.Signature.Reader
import TypeInventory.Text.Blank
import TypeInventory.Text.ControlSequence
import TypeInventory.Text.Hex
import TypeInventory.Text.Json
import TypeInventory.Text.Substring
import TypeInventory.Text.Utf8
import TypeInventory.Token
import TypeInventory.Proofs.Bytes.Reading
import TypeInventory.Proofs.Metadata.Columns
import TypeInventory.Proofs.Metadata.Access
import TypeInventory.Proofs.Metadata.CodedWidths
import TypeInventory.Proofs.Metadata.Geometry
import TypeInventory.Proofs.Module.Completeness
import TypeInventory.Proofs.Checked.Heaps
import TypeInventory.Proofs.Checked.Opening
import TypeInventory.Proofs.Checked.Resolving
import TypeInventory.Proofs.Module.Runs
import TypeInventory.Proofs.Bytes.Written
import TypeInventory.Proofs.Signature.Encoding
import TypeInventory.Proofs.Signature.Accepted
import TypeInventory.Proofs.Signature.RoundTrip
import TypeInventory.Proofs.Signature.Tails
import TypeInventory.Proofs.Written.Heaps
import TypeInventory.Proofs.Written.Root
import TypeInventory.Proofs.Written.Tables
import TypeInventory.Proofs.Written.Declarations
import TypeInventory.Proofs.Written.Resolving
import TypeInventory.Proofs.Written.Rows
import TypeInventory.Proofs.Written.Loading
import TypeInventory.Proofs.Written.Placing
import TypeInventory.Proofs.Module.Members
import TypeInventory.Proofs.Naming.Recursion
import TypeInventory.Proofs.Naming.Agreement
import TypeInventory.Proofs.Module.Agreement
import TypeInventory.Proofs.Module.Parameters
import TypeInventory.Proofs.Module.Reordering
import TypeInventory.Proofs.Naming.Cycles
import TypeInventory.Proofs.Naming.Faults
import TypeInventory.Proofs.Bytes.Locality
import TypeInventory.Proofs.Module.Isolation
import TypeInventory.Proofs.Module.GenericParameters
import TypeInventory.Proofs.Module.Ownership
import TypeInventory.Proofs.Output.Schedules
import TypeInventory.Proofs.Output.Dumping
import TypeInventory.Proofs.Module.Marks
import TypeInventory.Proofs.Module.References
import TypeInventory.Proofs.Metadata.Streams
import TypeInventory.Proofs.Module.Interleaving
import TypeInventory.Proofs.Naming.Depth
import TypeInventory.Proofs.Naming.FullNames
import TypeInventory.Proofs.Bytes.Compressed
import TypeInventory.Proofs.Bytes.Calls
import TypeInventory.Proofs.Metadata.Walking
import TypeInventory.Proofs.Descriptor.TypeTexts
import TypeInventory.Proofs.Output.Pages
import TypeInventory.Proofs.Image.Sections
import TypeInventory.Proofs.File.Components
import TypeInventory.Proofs.Output.FileNames
import TypeInventory.Proofs.Output.Narrowing
import TypeInventory.Proofs.Written.Enclosing
import TypeInventory.Proofs.Naming.Nesting
import TypeInventory.Proofs.Signature.Calls
