import RealmBoot.Archive.Scanner
import RealmBoot.Realm.Builder
import RealmBoot.Realm.Graph
import RealmBoot.Dispatch.Linker
import RealmBoot.Extension.Installation
import RealmBoot.Pipeline.JobName
import RealmBoot.Pipeline.Lint
import RealmBoot.Pipeline.Options
import RealmBoot.Toml.Document
import RealmBoot.Config.Reading
import RealmBoot.Config.Filter
import RealmBoot.Launch.Assembly
import RealmBoot.Launch.Run
import RealmBoot.Main
import RealmBoot.Proofs.Outcome
import RealmBoot.Proofs.Building
import RealmBoot.Proofs.LookupOrder
import RealmBoot.Proofs.BootArchives
import RealmBoot.Proofs.LaunchCourse
import RealmBoot.Proofs.ConflictMasked
import RealmBoot.Proofs.Following
import RealmBoot.Proofs.Growth
import RealmBoot.Proofs.ScopeLookup
import RealmBoot.Proofs.InstallationAccount
import RealmBoot.Proofs.InstallationCourse
import RealmBoot.Proofs.LastOperation
import RealmBoot.Proofs.ConflictAbsence
import RealmBoot.Proofs.LaunchLookup
import RealmBoot.Proofs.GraphCourse
import RealmBoot.Proofs.LateBinding
import RealmBoot.Proofs.ManifestRendering
import RealmBoot.Proofs.Places
import RealmBoot.Proofs.ScriptGrammar
import RealmBoot.Proofs.Completion
import RealmBoot.Proofs.Succession
import RealmBoot.Proofs.Nesting
import RealmBoot.Proofs.Diagnosis
import RealmBoot.Proofs.NamedFiles
import RealmBoot.Proofs.LongerPaths
import RealmBoot.Proofs.WalkCourse
import RealmBoot.Proofs.ScanCourse
import RealmBoot.Proofs.LocationReading
import RealmBoot.Proofs.MakingDirectories
import RealmBoot.Proofs.BelowHome
import RealmBoot.Proofs.Furnishing
import RealmBoot.Proofs.HomeCourse
import RealmBoot.Proofs.LaunchFootprint
import RealmBoot.Proofs.WritingFiles
import RealmBoot.Proofs.ReceivingDirectory
import RealmBoot.Proofs.PlacingArchives
import RealmBoot.Proofs.TakingSteps
import RealmBoot.Proofs.InstallationSteps
import RealmBoot.Proofs.InstalledFiles
import RealmBoot.Proofs.Reinstallation
import RealmBoot.Proofs.HaltedInstallation
import RealmBoot.Proofs.AssemblyOutcome
import RealmBoot.Proofs.ItemsOfTexts
import RealmBoot.Proofs.DependencyRendering
import RealmBoot.Proofs.PluginLines
import RealmBoot.Proofs.CachePlaces
import RealmBoot.Proofs.DirectoryOfLinks
import RealmBoot.Proofs.NormalForm
import RealmBoot.Proofs.LinkedModules
import RealmBoot.Proofs.Agreement
import RealmBoot.Proofs.FailureLayers
import RealmBoot.Proofs.ResolutionEnds
import RealmBoot.Proofs.LocationTransparency
import RealmBoot.Proofs.FrozenScope
import RealmBoot.Proofs.RecognisedExtensions
import RealmBoot.Proofs.WalkOrder
import RealmBoot.Proofs.FreeNames
import RealmBoot.Proofs.CopiedTrees
import RealmBoot.Proofs.CopyingHooks
import RealmBoot.Proofs.InstalledHooks
import RealmBoot.Proofs.ReportLayout
import RealmBoot.Proofs.SearchedDirectories
