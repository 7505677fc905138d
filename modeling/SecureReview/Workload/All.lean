import SecureReview.Workload.Models
import SecureReview.Workload.Reports
import SecureReview.Workload.Scans
import SecureReview.Workload.Stores
/-!
# All workloads
-/

namespace SecureReview.Workload

/-- The workloads of every part of the program. -/
def all : List Workload :=
  [apiEndpoints, autoFixEngine, cacheManager, cliAndOrchestrator, cliFormatters, complianceReports,
   contextSlicer, costTracker, databaseModels, fixTemplates, githubClient, incrementalScanner, llmCache,
   llmProviders, llmVerifier, metricsCalculator, performanceMonitor, privacySanitizer, prompts,
   rateLimiter, scannerNormalizers, scannerParsers, scannerRegistry, scannerSubprocessPaths,
   scannerWithContext, syntaxValidator, webhookAndNotifications]

/-- The workload of a name. -/
def named (name : String) : Except Failure Workload :=
  match all.find? (fun w => w.name == name) with
  | some w => .ok w
  | none => .error (.noOperation "module" name)

end SecureReview.Workload
