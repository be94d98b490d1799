import VllmScheduler.Common.Machine
import VllmScheduler.Common.Heap
import VllmScheduler.Common.BinaryHeap
import VllmScheduler.Common.Dict
import VllmScheduler.Common.NearestRank
import VllmScheduler.Common.Numerals
import VllmScheduler.Common.Lists
import VllmScheduler.Queue.PriorityQueue
import VllmScheduler.Scheduler.Aging
import VllmScheduler.Scheduler.Base
import VllmScheduler.Scheduler.Sjf
import VllmScheduler.Queue.Entries
import VllmScheduler.Scheduler.Steps
import VllmScheduler.Scheduler.Reload
import VllmScheduler.Scheduler.ReloadEffect
import VllmScheduler.Scheduler.Dispatch
import VllmScheduler.Queue.Live
import VllmScheduler.Scheduler.Fallback
import VllmScheduler.Scheduler.Orderly
import VllmScheduler.Scheduler.Overtaking
import VllmScheduler.Common.PriorityBag
import VllmScheduler.Scheduler.Oracle
import VllmScheduler.Go.Engine
import VllmScheduler.Go.Gateway
import VllmScheduler.Go.Handlers
import VllmScheduler.Common.Backlog
import VllmScheduler.Go.Turns
import VllmScheduler.Gateway.Model
import VllmScheduler.Gateway.Workers
import VllmScheduler.Gateway.Http
import VllmScheduler.Gateway.Streams
import VllmScheduler.Common.Text
import VllmScheduler.Common.Json
import VllmScheduler.Common.Regex
import VllmScheduler.Common.PyChars
import VllmScheduler.Common.PyList
import VllmScheduler.Common.PyRegex
import VllmScheduler.Scripts.PatchRegistry
import VllmScheduler.Scripts.PatchInit
import VllmScheduler.Features.Cpp
import VllmScheduler.Features.Python
import VllmScheduler.Features.Agreement
import VllmScheduler.Features.Messages
import VllmScheduler.Features.Extract
import VllmScheduler.SmolLM3.Loader
import VllmScheduler.SmolLM3.Values
import VllmScheduler.SmolLM3.Checkpoint
import VllmScheduler.Common.LazyQueue
import VllmScheduler.Cpp.Queue
import VllmScheduler.Cpp.Aging
import VllmScheduler.Queue.Lazy
import VllmScheduler.Queue.Agreement
import VllmScheduler.Scheduler.Compounding
import VllmScheduler.Go.Aging
import VllmScheduler.Go.Ties
import VllmScheduler.Go.HeapIndex
import VllmScheduler.Cpp.Scheduler
import VllmScheduler.Common.Monitor
import VllmScheduler.Go.Wakeups
import VllmScheduler.Queue.Wakeups
import VllmScheduler.SmolLM3.Forward
import VllmScheduler.SmolLM3.Layers
import VllmScheduler.Predictor.Dataset
import VllmScheduler.Predictor.Splits
import VllmScheduler.Common.Memo
import VllmScheduler.Predictor.Cache
import VllmScheduler.Predictor.Normalize
import VllmScheduler.Predictor.Mlp
import VllmScheduler.Predictor.Export
import VllmScheduler.Predictor.Trainer
import VllmScheduler.Predictor.EarlyStopping
import VllmScheduler.Scheduler.Fcfs
import VllmScheduler.Common.Waiting
import VllmScheduler.Scheduler.Optimal
import VllmScheduler.Common.Pool
import VllmScheduler.Benchmark.Simulate
import VllmScheduler.Benchmark.Metrics
import VllmScheduler.Gateway.Settle
import VllmScheduler.Queue.Runs
import VllmScheduler.Queue.Waits
import VllmScheduler.Queue.Lowered
import VllmScheduler.Scheduler.Cancel
import VllmScheduler.Scheduler.Starvation
import VllmScheduler.Common.LazyRefinement
import VllmScheduler.Cpp.Wakeups
import VllmScheduler.Go.Linearizable
import VllmScheduler.Queue.DispatchWorkers
import VllmScheduler.Common.LazyRank
import VllmScheduler.Scheduler.Ranking
import VllmScheduler.SmolLM3.Attention
import VllmScheduler.Common.Columns
import VllmScheduler.Predictor.Standardize
import VllmScheduler.Predictor.Network
import VllmScheduler.Predictor.Pipeline
import VllmScheduler.Common.Batches
import VllmScheduler.Gateway.Lifecycle
