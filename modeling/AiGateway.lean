import AiGateway.RealtimeCharge
import AiGateway.SubscriptionAccounting
import AiGateway.SubscriptionRefund
import AiGateway.SubscriptionIdempotence
import AiGateway.SubscriptionLostUpdate
import AiGateway.SubscriptionLimits
import AiGateway.SubscriptionPeriods
import AiGateway.SubscriptionUpgrade
import AiGateway.BatchFlush
import AiGateway.UserQuota
import AiGateway.PaymentOnce
import AiGateway.TaskOnce
import AiGateway.TaskFinal
import AiGateway.TaskReceipts
import AiGateway.SystemTaskRecovery
import AiGateway.RecordCacheWhole
import AiGateway.ChannelRebuild
import AiGateway.ChannelDisabled
import AiGateway.ChannelAgree
import AiGateway.OrderLockSafe
import AiGateway.ChannelCoherent
import AiGateway.ChannelKeyKept
import AiGateway.HeaderIsolation
import AiGateway.LegacyOverride
import AiGateway.ClaudeKept
import AiGateway.ResponsesAgree
import AiGateway.ClaudeBridge
import AiGateway.RateLimitBound
import AiGateway.RetryCharge
import AiGateway.SecondFactorGuards
import AiGateway.SessionAuth
import AiGateway.ForwardedModel
import AiGateway.ClaudeRequest
import AiGateway.ClaudeUpstream
import AiGateway.GeminiStream
import AiGateway.StreamScanner
import AiGateway.TokenBucket
import AiGateway.ModelMapping
import AiGateway.ChannelDraw
import AiGateway.ChannelFairness
import AiGateway.TaskTerms
import AiGateway.UsageDialect
