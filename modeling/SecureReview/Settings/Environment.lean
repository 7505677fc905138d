import SecureReview.Settings
import SecureReview.Settings.DotEnv
import SecureReview.Validation.Coercion
/-!
# Settings from the environment

Every setting can be given by a variable of the environment or a line of an environment file; the
environment goes first. Names are taken in their exact spelling, and unknown ones are ignored.
-/

namespace SecureReview.Settings

/-- Check the values that are given; the others keep their defaults. -/
def check (fs : Fields) : Checked Settings :=
  let d : Settings := {}
  let text := fun (k : String) (default : String) => Checked.defaulted fs k default Checked.string
  let whole := fun (k : String) (default : Int) => Checked.defaulted fs k default Checked.int
  let real := fun (k : String) (default : Float) => Checked.defaulted fs k default Checked.float
  let flag := fun (k : String) (default : Bool) => Checked.defaulted fs k default Checked.bool
  let secret := fun (k : String) => Checked.optional fs k Checked.string
  Settings.mk <$> text "APP_NAME" d.appName
    <*> text "APP_VERSION" d.appVersion
    <*> flag "DEBUG" d.debug
    <*> text "API_HOST" d.apiHost
    <*> whole "API_PORT" d.apiPort
    <*> text "REDIS_HOST" d.redisHost
    <*> whole "REDIS_PORT" d.redisPort
    <*> whole "REDIS_DB" d.redisDb
    <*> flag "ENABLE_CACHING" d.enableCaching
    <*> whole "CACHE_TTL_LLM" d.cacheTtlLlm
    <*> whole "CACHE_TTL_SCAN" d.cacheTtlScan
    <*> text "POSTGRES_USER" d.postgresUser
    <*> text "POSTGRES_PASSWORD" d.postgresPassword
    <*> text "POSTGRES_HOST" d.postgresHost
    <*> whole "POSTGRES_PORT" d.postgresPort
    <*> text "POSTGRES_DB" d.postgresDb
    <*> secret "OPENAI_API_KEY"
    <*> text "OPENAI_MODEL" d.openaiModel
    <*> real "OPENAI_TEMPERATURE" d.openaiTemperature
    <*> whole "OPENAI_MAX_TOKENS" d.openaiMaxTokens
    <*> secret "ANTHROPIC_API_KEY"
    <*> text "ANTHROPIC_MODEL" d.anthropicModel
    <*> secret "GOOGLE_API_KEY"
    <*> text "GOOGLE_MODEL" d.googleModel
    <*> text "LLM_PROVIDER" d.llmProvider
    <*> real "LLM_COST_BUDGET_MONTHLY" d.llmCostBudgetMonthly
    <*> secret "GITHUB_TOKEN"
    <*> secret "GITHUB_WEBHOOK_SECRET"
    <*> whole "MAX_FILE_SIZE_MB" d.maxFileSizeMb
    <*> whole "CLONE_TIMEOUT_SECONDS" d.cloneTimeoutSeconds
    <*> whole "SCAN_TIMEOUT_SECONDS" d.scanTimeoutSeconds
    <*> flag "ENABLE_PII_REDACTION" d.enablePiiRedaction
    <*> flag "ENABLE_SECRET_REDACTION" d.enableSecretRedaction
    <*> secret "SLACK_WEBHOOK_URL"
    <*> secret "DISCORD_WEBHOOK_URL"
    <*> flag "ENABLE_SLACK_NOTIFICATIONS" d.enableSlackNotifications
    <*> flag "ENABLE_DISCORD_NOTIFICATIONS" d.enableDiscordNotifications
    <*> text "NOTIFICATION_MIN_SEVERITY" d.notificationMinSeverity

/-- Settings from the environment, and from the text of an environment file if there is one. -/
def load (env : List (String × String)) (file : Option String) : Except Failure Settings :=
  let lines := (file.map (DotEnv.read env)).getD []
  (check ((env ++ lines).map (fun e => (e.1, .str e.2)))).get "Settings"

/-- All settings by name. -/
def toJson (s : Settings) : Json :=
  .obj [
    ("APP_NAME", .str s.appName), ("APP_VERSION", .str s.appVersion), ("DEBUG", .bool s.debug),
    ("API_HOST", .str s.apiHost), ("API_PORT", .int s.apiPort),
    ("REDIS_HOST", .str s.redisHost), ("REDIS_PORT", .int s.redisPort), ("REDIS_DB", .int s.redisDb),
    ("ENABLE_CACHING", .bool s.enableCaching), ("CACHE_TTL_LLM", .int s.cacheTtlLlm),
    ("CACHE_TTL_SCAN", .int s.cacheTtlScan),
    ("POSTGRES_USER", .str s.postgresUser), ("POSTGRES_PASSWORD", .str s.postgresPassword),
    ("POSTGRES_HOST", .str s.postgresHost), ("POSTGRES_PORT", .int s.postgresPort),
    ("POSTGRES_DB", .str s.postgresDb),
    ("OPENAI_API_KEY", Json.ofString? s.openaiApiKey), ("OPENAI_MODEL", .str s.openaiModel),
    ("OPENAI_TEMPERATURE", .float s.openaiTemperature), ("OPENAI_MAX_TOKENS", .int s.openaiMaxTokens),
    ("ANTHROPIC_API_KEY", Json.ofString? s.anthropicApiKey), ("ANTHROPIC_MODEL", .str s.anthropicModel),
    ("GOOGLE_API_KEY", Json.ofString? s.googleApiKey), ("GOOGLE_MODEL", .str s.googleModel),
    ("LLM_PROVIDER", .str s.llmProvider), ("LLM_COST_BUDGET_MONTHLY", .float s.llmCostBudgetMonthly),
    ("GITHUB_TOKEN", Json.ofString? s.githubToken),
    ("GITHUB_WEBHOOK_SECRET", Json.ofString? s.githubWebhookSecret),
    ("MAX_FILE_SIZE_MB", .int s.maxFileSizeMb), ("CLONE_TIMEOUT_SECONDS", .int s.cloneTimeoutSeconds),
    ("SCAN_TIMEOUT_SECONDS", .int s.scanTimeoutSeconds),
    ("ENABLE_PII_REDACTION", .bool s.enablePiiRedaction),
    ("ENABLE_SECRET_REDACTION", .bool s.enableSecretRedaction),
    ("SLACK_WEBHOOK_URL", Json.ofString? s.slackWebhookUrl),
    ("DISCORD_WEBHOOK_URL", Json.ofString? s.discordWebhookUrl),
    ("ENABLE_SLACK_NOTIFICATIONS", .bool s.enableSlackNotifications),
    ("ENABLE_DISCORD_NOTIFICATIONS", .bool s.enableDiscordNotifications),
    ("NOTIFICATION_MIN_SEVERITY", .str s.notificationMinSeverity)]

end SecureReview.Settings
