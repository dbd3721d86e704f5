import LuluExt.Lib.Run
import LuluExt.Lib.Go
import LuluExt.Lib.BucketRing
import LuluExt.Lib.RingLog
import LuluExt.Lib.Budget
import LuluExt.Lib.Smoothing
import LuluExt.Lib.Watermark
import LuluExt.Lib.Base64
import LuluExt.Lib.EventStream
import LuluExt.Lib.Mutex
import LuluExt.Lib.Keyed
import LuluExt.Lib.Chunked
import LuluExt.Lib.Scanner
import LuluExt.Lib.Assoc
import LuluExt.Lib.Ranging
import LuluExt.Lib.Finality
import LuluExt.Lib.Url
import LuluExt.Lib.Gather
import LuluExt.Lib.Chain
import LuluExt.Lib.Strconv
import LuluExt.Lib.Backoff
import LuluExt.Window
import LuluExt.CircuitBreaker.Basic
import LuluExt.CircuitBreaker.Protect
import LuluExt.CircuitBreaker.Hystrix
import LuluExt.CircuitBreaker.HystrixRecovery
import LuluExt.CircuitBreaker.HystrixTrial
import LuluExt.CircuitBreaker.HystrixTrip
import LuluExt.CircuitBreaker.Sres
import LuluExt.CircuitBreaker.SresAcceptance
import LuluExt.CircuitBreaker.SresState
import LuluExt.CircuitBreaker.Vegas
import LuluExt.CircuitBreaker.VegasTrip
import LuluExt.CircuitBreaker.VegasBaseline
import LuluExt.CircuitBreaker.Sentinel
import LuluExt.RateLimit.Basic
import LuluExt.RateLimit.TokenBucket
import LuluExt.RateLimit.Bbr
import LuluExt.RateLimit.BbrAdmission
import LuluExt.RateLimit.TokenWait
import LuluExt.RateLimit.Waiters
import LuluExt.WindowMemory
import LuluExt.WindowPanic
import LuluExt.Transport.Http
import LuluExt.Retry
import LuluExt.Retry.Spec
import LuluExt.Retry.Budget
import LuluExt.Retry.Linear
import LuluExt.Transport.Grpc.Retry
import LuluExt.Transport.Grpc.Status
import LuluExt.Transport.Grpc.Errors
import LuluExt.Transport.Grpc.Timeout
import LuluExt.Transport.Grpc.Metadata
import LuluExt.Transport.CircuitBreaker
import LuluExt.Transport.RateLimit
import LuluExt.Transport.Keyed
import LuluExt.Broker.KafkaConsumer
import LuluExt.Broker.KafkaProducer
import LuluExt.Broker.Encoding
import LuluExt.Broker.RedisStream
import LuluExt.Broker.KafkaBroker
import LuluExt.Broker.KafkaBatch
import LuluExt.Broker.KafkaWriters
import LuluExt.Broker.KafkaSerial
import LuluExt.Broker.Rabbitmq.Delivery
import LuluExt.Broker.Rabbitmq.Connection
import LuluExt.Broker.Rabbitmq.Channel
import LuluExt.Broker.Rabbitmq.Resubscribe
import LuluExt.Broker.RedisPubsub
import LuluExt.Broker.Headers
import LuluExt.Broker.Rocketmq
import LuluExt.Broker.Mqtt
import LuluExt.Broker.MqttAddrs
import LuluExt.Broker.Nats
import LuluExt.Transport.Sse.Event
import LuluExt.Transport.Sse.Wire
import LuluExt.Transport.Sse.Stream
import LuluExt.Transport.Sse.Server
import LuluExt.Transport.Sse.Poison
import LuluExt.Transport.Sse.Loop
import LuluExt.Transport.Sse.Reader
import LuluExt.Transport.Sse.Ttl
import LuluExt.Transport.Sse.Registry
import LuluExt.Transport.Webrtc.Sfu
import LuluExt.Transport.Webrtc.Cleanup
import LuluExt.Transport.Webrtc.Tables
import LuluExt.Transport.Webrtc.Shutdown
import LuluExt.Transport.Http.Writer
import LuluExt.Transport.Http.Retry
import LuluExt.Transport.Http.Timeout
import LuluExt.Transport.Http.Crypto
import LuluExt.Transport.Http.Cors
import LuluExt.Transport.Http.Codec
import LuluExt.Transport.Http3
import LuluExt.Transport.Use
import LuluExt.Chains
import LuluExt.Transport.Websocket.Message
import LuluExt.Transport.Websocket.Pump
import LuluExt.Transport.Websocket.Sessions
import LuluExt.Transport.Webtransport
import LuluExt.Transport.KafkaServer
import LuluExt.Transport.KafkaStart
import LuluExt.Transport.Asynq
import LuluExt.Transport.AsynqRedis
import LuluExt.Transport.StartStop
import LuluExt.Cache.Local
import LuluExt.Cache.SetNX
import LuluExt.Config.Oss
import LuluExt.Config.Http
import LuluExt.Config.Fallback
import LuluExt.Config.Nacos
import LuluExt.Config.File
import LuluExt.Registry.Nacos
import LuluExt.Registry.NacosRegister
import LuluExt.Registry.NacosDiscovery
import LuluExt.Registry.Kubernetes
import LuluExt.Registry.KubernetesWatch
import LuluExt.Health.Check
import LuluExt.Health.Composite
import LuluExt.Log.Composition
import LuluExt.Broker.Reconnect
import LuluExt.Broker.KafkaCarrier
import LuluExt.Broker.SubscriberMap
import LuluExt.Metrics.Prometheus
