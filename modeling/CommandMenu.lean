import CommandMenu.Json.Reader
import CommandMenu.Menu.Encoding
import CommandMenu.Display.Layout
import CommandMenu.Toml.Document
import CommandMenu.Files.Folder
import CommandMenu.Menu.Store
import CommandMenu.Settings.Load
import CommandMenu.CommandLine.Run
import CommandMenu.Main
import CommandMenu.Proofs.Validity
import CommandMenu.Proofs.Blame
import CommandMenu.Proofs.EmptyGroups
import CommandMenu.Proofs.Explicit
import CommandMenu.Proofs.Fences
import CommandMenu.Proofs.Embedding
import CommandMenu.Menu.Traffic
import CommandMenu.Proofs.Freshness
import CommandMenu.Menu.Calls
import CommandMenu.Proofs.Publication
import CommandMenu.Proofs.Alike
import CommandMenu.Proofs.JsonForm
import CommandMenu.Proofs.Skipping
import CommandMenu.Proofs.Layers
import CommandMenu.Proofs.Agreement
import CommandMenu.Proofs.Keys
import CommandMenu.Proofs.CommandGrammar
import CommandMenu.Proofs.UnusableKeys
import CommandMenu.Proofs.AnnouncedFormat
import CommandMenu.Proofs.Reloading
import CommandMenu.Proofs.MenuLines
import CommandMenu.Proofs.Colours
import CommandMenu.Menu.Session
import CommandMenu.Proofs.Reuse
import CommandMenu.Value.Changes
import CommandMenu.Proofs.Histories
import CommandMenu.Proofs.Renaming
