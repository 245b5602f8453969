import Stencil.Text.Lines
import Stencil.Number.Fixed
import Stencil.FileSystem.Change
import Stencil.Config.Assignment
import Stencil.Config.Save
import Stencil.Config.Settings
import Stencil.Reference.Collect
import Stencil.Template.Engine
import Stencil.Render.Task
import Stencil.Build.Document
import Stencil.Document
import Stencil.Command.Run
import Stencil.Main
import Stencil.Proofs.Build.Frame
import Stencil.Proofs.Build.Templates
import Stencil.Proofs.Reference.Agreement
import Stencil.Proofs.Reference.Build
import Stencil.Proofs.Reference.Written
import Stencil.Proofs.Render.Missing
import Stencil.Proofs.Render.Pool
import Stencil.Proofs.Template.Account
import Stencil.Proofs.Template.Ending
import Stencil.Proofs.Template.Expr
import Stencil.Proofs.Template.Parse
import Stencil.Proofs.Template.Region
import Stencil.Proofs.Catalog.Again
import Stencil.Proofs.Catalog.Visible
import Stencil.Proofs.Catalog.Classified
import Stencil.Proofs.Output.Again
import Stencil.Proofs.Output.Apart
import Stencil.Proofs.Output.Header
import Stencil.Proofs.Build.Report
import Stencil.Proofs.Build.Again
import Stencil.Proofs.Build.Succeeded
import Stencil.Proofs.Output.Store
import Stencil.Proofs.Output.Whole
import Stencil.Proofs.Command.Dependencies
import Stencil.Proofs.Command.Precedence
import Stencil.Proofs.Reference.Remembered
import Stencil.Proofs.Reference.Search
import Stencil.Proofs.Reference.Position
import Stencil.Proofs.Ignore.Directory
import Stencil.Proofs.Output.Lookup
import Stencil.Proofs.Output.Room
import Stencil.Proofs.Config.Valid
