/-!
# Settings

The configuration of the service, with its defaults. No key, token or secret is set by default.
-/

namespace SecureReview

/-- The configuration. -/
structure Settings where
  appName : String := "Secure Code Review Bot"
  appVersion : String := "2.0.0"
  debug : Bool := false
  apiHost : String := "0.0.0.0"
  apiPort : Int := 8000
  redisHost : String := "redis"
  redisPort : Int := 6379
  redisDb : Int := 0
  enableCaching : Bool := true
  cacheTtlLlm : Int := 86400
  cacheTtlScan : Int := 3600
  postgresUser : String := "postgres"
  postgresPassword : String := "postgres"
  postgresHost : String := "postgres"
  postgresPort : Int := 5432
  postgresDb : String := "secure_code_review"
  openaiApiKey : Option String := none
  openaiModel : String := "gpt-4o"
  openaiTemperature : Float := 0.1
  openaiMaxTokens : Int := 2000
  anthropicApiKey : Option String := none
  anthropicModel : String := "claude-3-5-sonnet-20241022"
  googleApiKey : Option String := none
  googleModel : String := "gemini-1.5-pro"
  llmProvider : String := "openai"
  llmCostBudgetMonthly : Float := 1000.0
  githubToken : Option String := none
  githubWebhookSecret : Option String := none
  maxFileSizeMb : Int := 10
  cloneTimeoutSeconds : Int := 300
  scanTimeoutSeconds : Int := 600
  enablePiiRedaction : Bool := true
  enableSecretRedaction : Bool := true
  slackWebhookUrl : Option String := none
  discordWebhookUrl : Option String := none
  enableSlackNotifications : Bool := false
  enableDiscordNotifications : Bool := false
  notificationMinSeverity : String := "HIGH"

end SecureReview
