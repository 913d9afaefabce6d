import CppLint.Lib.Outcome
import CppLint.Lib.Stateful
import CppLint.Lib.Loop
import CppLint.Lib.Segments
import CppLint.Lib.Lines
import CppLint.Lib.ShellWords
import CppLint.Lib.UnorderedMap
import CppLint.Shell.ExecuteTheorems
import CppLint.Utils.Text
import CppLint.Git.DiffTheorems
import CppLint.Git.Position
import CppLint.Git.BlobTheorems
import CppLint.ContextTheorems
import CppLint.Tool.CheckTheorems
import CppLint.Tool.VerdictTheorems
import CppLint.Tool.CreatorTheorems
import CppLint.ClangTidy.ParseTheorems
import CppLint.ClangTidy.PositionTheorems
import CppLint.ClangTidy.CorrespondenceTheorems
import CppLint.ClangTidy.AttributionTheorems
import CppLint.ClangFormat.ImplTheorems
import CppLint.ClangFormat.PositionTheorems
import CppLint.ClangFormat.GroupingTheorems
import CppLint.Github.ClientTheorems
import CppLint.Github.ExchangeTheorems
import CppLint.Github.IdTheorems
import CppLint.Github.ThreadTheorems
import CppLint.ToolsTheorems
import CppLint.ReportTheorems
import CppLint.ToolChecksTheorems
import CppLint.ClangFormat.Creator
import CppLint.ClangTidy.Creator
import CppLint.Github.EnvTheorems
import CppLint.ReproduceTheorems
import CppLint.Action
import CppLint.ActionTheorems
import CppLint.SourceCheckTheorems
import CppLint.MainTheorems
import CppLint.Shell.ReturnTheorems
import CppLint.Github.HistoryTheorems
import CppLint.RaiseTheorems
import CppLint.CrashTheorems
import CppLint.RequestTheorems
import CppLint.Lib.Simulation
import CppLint.Utils.EnvManager
import CppLint.Utils.EnvManagerTheorems
import CppLint.DeterminismTheorems
import CppLint.SettingsTheorems
import CppLint.ConsistencyTheorems
import CppLint.WriteTheorems
import CppLint.ReviewBoundsTheorems
import CppLint.PullRequestTheorems
import CppLint.Tool.ExaminedTheorems
import CppLint.PipelineTheorems
import CppLint.TextTheorems
